import Vault.Main
import Vault.Scene.Perform
import Vault.Proofs.Bytes
import Vault.Proofs.Cbor.Head
import Vault.Proofs.Cbor.Parts
import Vault.Proofs.Wire.Response
import Vault.Proofs.Frame.Reading
import Vault.Proofs.Schedule
import Vault.Proofs.Crypto.Envelope
import Vault.Proofs.Frame.Stream
import Vault.Proofs.Wire.RoundTrip
import Vault.Proofs.Wire.Size
import Vault.Proofs.Link.Pipe
import Vault.Proofs.Session.Station
import Vault.Proofs.Session.Duplex
import Vault.Proofs.Session.Passage.Call
import Vault.Proofs.Session.Lifecycle
import Vault.Proofs.Store.History
import Vault.Proofs.Store.Mirror
import Vault.Proofs.Session.Transcript
import Vault.Proofs.Session.Transparency.Sessions
import Vault.Proofs.Crypto.Agreement
import Vault.Proofs.Session.Addition
import Vault.Proofs.Store.Observed
import Vault.Proofs.Service.Stages
import Vault.Proofs.Service.Traffic
import Vault.Proofs.Service.Effects
import Vault.Proofs.Cbor.Complaint.Frames
import Vault.Proofs.Service.LastWord
import Vault.Proofs.Service.Observation
import Vault.Proofs.Store.Newest
import Vault.Proofs.Session.Listing
import Vault.Proofs.Session.Crossing
import Vault.Proofs.Session.Meeting
import Vault.Proofs.Link.Transit
import Vault.Proofs.Link.Fifo
import Vault.Proofs.Link.Flow
import Vault.Proofs.Link.Channel
import Vault.Proofs.Retention.Journal
import Vault.Proofs.Retention.Patrol
import Vault.Proofs.Session.Echo.Received
import Vault.Proofs.Session.Parting
import Vault.Proofs.Session.Shutdown.Outcome
import Vault.Proofs.Crypto.Cipher
import Vault.Proofs.Crypto.Authenticity
import Vault.Proofs.Service.Answers
import Vault.Proofs.Session.Fitting
import Vault.Proofs.Cbor.Grammar
import Vault.Proofs.Cbor.Language
import Vault.Proofs.Wire.Language
import Vault.Proofs.Store.Ranking
import Vault.Proofs.Store.Origin
import Vault.Proofs.Retention.Expiry
import Vault.Proofs.Session.Outlet
import Vault.Proofs.Session.Gate.Passing
import Vault.Proofs.Service.Discretion
import Vault.Proofs.Time
import Vault.Proofs.Store.Migration
import Vault.Proofs.Retention.Lasting
import Vault.Proofs.Service.Failures
import Vault.Proofs.Service.Alarms

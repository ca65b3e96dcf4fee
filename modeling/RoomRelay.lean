import RoomRelay.Clock
import RoomRelay.Config.Basic
import RoomRelay.Config.Document
import RoomRelay.Config.Load
import RoomRelay.Lobby.Basic
import RoomRelay.Lobby.Lemmas
import RoomRelay.Main
import RoomRelay.Network.Address
import RoomRelay.Network.Mailbox
import RoomRelay.Operator.Command
import RoomRelay.Operator.Report
import RoomRelay.Proofs.Answer
import RoomRelay.Proofs.Authority
import RoomRelay.Proofs.Duplicate
import RoomRelay.Proofs.Election
import RoomRelay.Proofs.Handler
import RoomRelay.Proofs.History
import RoomRelay.Proofs.Identity
import RoomRelay.Proofs.Membership.Lobby
import RoomRelay.Proofs.Membership.Room
import RoomRelay.Proofs.Membership.World
import RoomRelay.Proofs.Move
import RoomRelay.Proofs.Placement
import RoomRelay.Proofs.Recognition
import RoomRelay.Proofs.Roster
import RoomRelay.Proofs.Run
import RoomRelay.Proofs.Seating
import RoomRelay.Proofs.Service
import RoomRelay.Proofs.Session
import RoomRelay.Proofs.Settings
import RoomRelay.Proofs.StaleCredentials
import RoomRelay.Proofs.Token
import RoomRelay.Relay.Dispatch
import RoomRelay.Relay.Request
import RoomRelay.Relay.Server
import RoomRelay.Relay.Service
import RoomRelay.Relay.Worker
import RoomRelay.Room.Basic
import RoomRelay.Room.Lemmas
import RoomRelay.Room.Matching
import RoomRelay.Room.Table
import RoomRelay.Session.Basic
import RoomRelay.Session.Seat
import RoomRelay.Session.Token
import RoomRelay.Text.Hex
import RoomRelay.Text.Numeral
import RoomRelay.Text.Words
import RoomRelay.Wire.Checksum
import RoomRelay.Wire.Credentials
import RoomRelay.Wire.Error
import RoomRelay.Wire.Exact
import RoomRelay.Wire.Field
import RoomRelay.Wire.Format
import RoomRelay.Wire.Kind
import RoomRelay.Wire.LittleEndian
import RoomRelay.Wire.Packet
import RoomRelay.Wire.Reader
import RoomRelay.Wire.Record
import RoomRelay.Wire.Request
import RoomRelay.Wire.Response
import RoomRelay.Wire.Writer
import RoomRelay.World.Basic
import RoomRelay.World.Election
import RoomRelay.World.Recipients
import RoomRelay.World.Sweep
import RoomRelay.Proofs.Mastery
import RoomRelay.Proofs.Reign
import RoomRelay.Proofs.Packet
import RoomRelay.Proofs.Delivery
import RoomRelay.Proofs.Handshake
import RoomRelay.Proofs.Retoken
import RoomRelay.Proofs.Secrecy
import RoomRelay.Proofs.Codec
import RoomRelay.Proofs.Reply
import RoomRelay.Proofs.Naming
import RoomRelay.Proofs.Scope
import RoomRelay.Proofs.Accounting
import RoomRelay.Proofs.Independence
import RoomRelay.Proofs.Latest
import RoomRelay.Proofs.Chronicle
import RoomRelay.Proofs.Fate
import RoomRelay.Proofs.Turn
import RoomRelay.Proofs.Tenure
import RoomRelay.Proofs.Checked.Basic
import RoomRelay.Proofs.Checked.Reader
import RoomRelay.Proofs.Checked.Request
import RoomRelay.Proofs.Checked.Tables
import RoomRelay.Proofs.Checked.World
import RoomRelay.Proofs.Checked.Frames
import RoomRelay.Proofs.Checked.Server
import RoomRelay.Proofs.Notice
import RoomRelay.Proofs.Elections
import RoomRelay.Proofs.Membership.Cells
import RoomRelay.Proofs.Sweep
import RoomRelay.Proofs.Visit
import RoomRelay.Proofs.Slate
import RoomRelay.Proofs.Reuse
import RoomRelay.Proofs.Ballot
import RoomRelay.Proofs.Polls
import RoomRelay.Proofs.Admission
import RoomRelay.Proofs.Matchmaking
import RoomRelay.Proofs.Corruption
import RoomRelay.Proofs.Rewriting
import RoomRelay.Proofs.Padding
import RoomRelay.Proofs.Founding
import RoomRelay.Proofs.Passage
import RoomRelay.Proofs.Grammar
import RoomRelay.Proofs.Census
import RoomRelay.Proofs.Refusal
import RoomRelay.Proofs.Succession
import RoomRelay.Proofs.Transcript

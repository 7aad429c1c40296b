import Spdy.Bytes
import Spdy.Config
import Spdy.Error
import Spdy.Frame
import Spdy.Headers
import Spdy.Link
import Spdy.Message
import Spdy.Outbox
import Spdy.Rehearsal.Play
import Spdy.Rehearsal.Script
import Spdy.Rehearsal.World
import Spdy.Rig
import Spdy.Session.Event
import Spdy.Session.Machine
import Spdy.Session.Notice
import Spdy.Session.Operation
import Spdy.Session.State
import Spdy.Session.Task
import Spdy.Setting
import Spdy.Status
import Spdy.Stream
import Spdy.Text.CharSet
import Spdy.Text.Invisible
import Spdy.Text.Mark
import Spdy.Text.Quoted
import Spdy.Text.Unassigned
import Spdy.Version
import Spdy.Wire.Buffer
import Spdy.Wire.Decoder
import Spdy.Wire.Encoder
import Spdy.Wire.HeaderBlock
import Spdy.Wire.Reader
import Spdy.Wire.Received
import Spdy.Proofs.Run
import Spdy.Proofs.Calm
import Spdy.Proofs.Post
import Spdy.Proofs.Write
import Spdy.Proofs.Turn
import Spdy.Proofs.SingleWrite
import Spdy.Proofs.Known
import Spdy.Proofs.Wakeful
import Spdy.Proofs.Passage
import Spdy.Proofs.LastWord
import Spdy.Proofs.Windows
import Spdy.Proofs.Cover
import Spdy.Proofs.Delivery
import Spdy.Proofs.Pieces
import Spdy.Proofs.Fields
import Spdy.Proofs.RoundTrip
import Spdy.Proofs.Grammar
import Spdy.Proofs.Recognition
import Spdy.Proofs.Meaning
import Spdy.Proofs.Room
import Spdy.Proofs.Resending
import Spdy.Proofs.Chunks
import Spdy.Proofs.BareReads
import Spdy.Proofs.Account
import Spdy.Proofs.FlowControl
import Spdy.Proofs.GiveUp
import Spdy.Proofs.Overflow
import Spdy.Proofs.Drift
import Spdy.Proofs.Census
import Spdy.Proofs.Tidings
import Spdy.Proofs.Life
import Spdy.Proofs.MachineWords
import Spdy.Proofs.Panics
import Spdy.Proofs.Pair
import Spdy.Proofs.Deed
import Spdy.Proofs.Numbering
import Spdy.Proofs.Letters
import Spdy.Proofs.Order
import Spdy.Proofs.Channel
import Spdy.Proofs.Hearing
import Spdy.Proofs.EndToEnd
import Spdy.Proofs.Assured
import Spdy.Proofs.Response
import Spdy.Proofs.Reclaim
import Spdy.Proofs.Scene
import Spdy.Proofs.Standing
import Spdy.Proofs.Agreement
import Spdy.Proofs.Answer
import Spdy.Proofs.Precedence
import Spdy.Proofs.Agenda
import Spdy.Proofs.Parting
import Spdy.Proofs.Closure
import Spdy.Proofs.Terminal
import Spdy.Proofs.Pings
import Spdy.Proofs.Echo
import Spdy.Proofs.Tariff
import Spdy.Proofs.Effort
import Spdy.Proofs.Quiescence
import Spdy.Proofs.Rig
import Spdy.Proofs.Custody
import Spdy.Proofs.Reports
import Spdy.Proofs.Course
import Spdy.Proofs.Rehearsed
import Spdy.Proofs.Refusals
import Spdy.Proofs.Allotment
import Spdy.Proofs.Discard
import Spdy.Proofs.Resize
import Spdy.Proofs.Repose
import Spdy.Proofs.Renounce
import Spdy.Proofs.Lockstep
import Spdy.Proofs.Meanwhile
import Spdy.Proofs.TableOrder
import Spdy.Proofs.Failures
import Spdy.Proofs.Drainage
import Spdy.Proofs.Isolation
import Spdy.Proofs.Rounds
import Spdy.Proofs.Roster
import Spdy.Proofs.Composure
import Spdy.Proofs.Multimap
import Spdy.Proofs.LastStream
import Spdy.Proofs.Whereabouts
import Spdy.Proofs.GracefulClose

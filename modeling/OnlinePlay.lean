import OnlinePlay.Chat.Log
import OnlinePlay.Chat.Message
import OnlinePlay.Cli.Options
import OnlinePlay.Cli.Run
import OnlinePlay.Client.Dialogue
import OnlinePlay.Client.Errands
import OnlinePlay.Client.Feed
import OnlinePlay.Client.Intake
import OnlinePlay.Client.JobQueue
import OnlinePlay.Client.Lifecycle
import OnlinePlay.Client.Polling
import OnlinePlay.Client.State
import OnlinePlay.Client.Step
import OnlinePlay.Client.Subscriptions
import OnlinePlay.Connection
import OnlinePlay.Core.Error
import OnlinePlay.Core.Faulty
import OnlinePlay.Core.Inbox
import OnlinePlay.Core.Loopback
import OnlinePlay.Core.Stimulus
import OnlinePlay.Error
import OnlinePlay.Event
import OnlinePlay.Game
import OnlinePlay.Lobby.Browser
import OnlinePlay.Lobby.Client
import OnlinePlay.Lobby.Directory
import OnlinePlay.Lobby.Error
import OnlinePlay.Lobby.Filter
import OnlinePlay.Lobby.Listing
import OnlinePlay.Lobby.Titles
import OnlinePlay.Main
import OnlinePlay.Player
import OnlinePlay.Poll.Cadence
import OnlinePlay.Poll.Config
import OnlinePlay.Poll.Poller
import OnlinePlay.Proofs.Client.History
import OnlinePlay.Proofs.Client.Inbound
import OnlinePlay.Proofs.Store.Inversion
import OnlinePlay.Rehearsal.Browsing
import OnlinePlay.Rehearsal.Play
import OnlinePlay.Rehearsal.Polling
import OnlinePlay.Roster
import OnlinePlay.Session.Error
import OnlinePlay.Session.HostCode
import OnlinePlay.Session.Settings
import OnlinePlay.Session.Store
import OnlinePlay.Text.Blank
import OnlinePlay.Text.Form
import OnlinePlay.Wire.Error
import OnlinePlay.Wire.Format
import OnlinePlay.Wire.Numeral
import OnlinePlay.Wire.Payload
import OnlinePlay.Wire.Reader
import OnlinePlay.Wire.Record
import OnlinePlay.Wire.Text
import OnlinePlay.Wire.Value
import OnlinePlay.Proofs.Client.Shift
import OnlinePlay.Proofs.Client.Standing
import OnlinePlay.Proofs.Client.Attempts
import OnlinePlay.Proofs.Client.CoreCalls
import OnlinePlay.Proofs.Client.Failure
import OnlinePlay.Proofs.Client.Isolation
import OnlinePlay.Proofs.Client.News
import OnlinePlay.Proofs.Store.Operation
import OnlinePlay.Proofs.Store.Edits
import OnlinePlay.Proofs.Client.StatusTrace
import OnlinePlay.Proofs.Client.RosterNews
import OnlinePlay.Proofs.Client.Turns
import OnlinePlay.Proofs.Client.Verdict
import OnlinePlay.Proofs.Roster
import OnlinePlay.Proofs.Roster.Register
import OnlinePlay.Proofs.Core.Loopback
import OnlinePlay.Proofs.Client.Polling
import OnlinePlay.Proofs.Client.Reports
import OnlinePlay.Proofs.Chat.Log
import OnlinePlay.Proofs.Client.ChatNews
import OnlinePlay.Proofs.Store.HostCodes
import OnlinePlay.Proofs.Store.CodeHistory
import OnlinePlay.Proofs.Store.Ownership
import OnlinePlay.Proofs.Client.Requests
import OnlinePlay.Proofs.Client.Shutdown
import OnlinePlay.Proofs.Poll.Poller
import OnlinePlay.Proofs.Poll.Rounds
import OnlinePlay.Proofs.Poll.Silence
import OnlinePlay.Proofs.Poll.Cadence
import OnlinePlay.Proofs.Wire.Payload
import OnlinePlay.Proofs.Wire.Range
import OnlinePlay.Proofs.Lobby.Discovery
import OnlinePlay.Proofs.Lobby.Browser
import OnlinePlay.Proofs.Lobby.Display
import OnlinePlay.Proofs.Lobby.Schedule
import OnlinePlay.Proofs.Client.Agreement
import OnlinePlay.Proofs.Client.ChatCalls
import OnlinePlay.Proofs.Client.Echo
import OnlinePlay.Proofs.Client.JobQueue
import OnlinePlay.Proofs.Client.WorkQueue
import OnlinePlay.Proofs.Rehearsal.Dispatcher
import OnlinePlay.Proofs.Rehearsal.Polling
import OnlinePlay.Proofs.Rehearsal.Subscriptions
import OnlinePlay.Proofs.Client.Replies
import OnlinePlay.Proofs.Rehearsal.Continuations
import OnlinePlay.Proofs.Client.Launch

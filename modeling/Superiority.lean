import Superiority.Native.Presence
import Superiority.Library.Run
import Superiority.Native.PresenceInvariant
import Superiority.Native.Stream
import Superiority.Native.Duplex
import Superiority.Live.Events
import Superiority.Live.Store
import Superiority.Live.StoreBatching
import Superiority.Live.Chat
import Superiority.Live.Projector
import Superiority.Live.Batcher
import Superiority.Live.Tap
import Superiority.Live.Worker
import Superiority.Live.Ledger
import Superiority.Live.Serialize
import Superiority.Live.Sync
import Superiority.Live.Mirror
import Superiority.Live.Accepted
import Superiority.Live.Posted
import Superiority.Library.Noninterference
import Superiority.Live.Selection
import Superiority.Live.Classic
import Superiority.Live.Viewer
import Superiority.Live.Rooms
import Superiority.Live.Read
import Superiority.Live.Visible
import Superiority.Updater.Appcast
import Superiority.Updater.Feed
import Superiority.Updater.FeedEdits
import Superiority.Updater.FeedText
import Superiority.Library.Crash
import Superiority.Library.Files
import Superiority.Updater.Windows
import Superiority.Updater.Install
import Superiority.Updater.Rollback
import Superiority.Bsn.Bits
import Superiority.Native.Adverts
import Superiority.Native.PresencePayload
import Superiority.Bsn.Reading
import Superiority.Bsn.Schema
import Superiority.Bsn.Value
import Superiority.Bsn.Layout
import Superiority.Native.WireLayout
import Superiority.Bsn.Codec
import Superiority.Bsn.Stability
import Superiority.Bsn.Simulation
import Superiority.Bsn.Trace
import Superiority.Bsn.TraceSpans
import Superiority.Native.Registered
import Superiority.Bsn.Paths
import Superiority.Bsn.Reach
import Superiority.Native.Catalogue
import Superiority.Bsn.TracePaths
import Superiority.Native.Clubs
import Superiority.Native.PresenceFolds
import Superiority.Native.SessionProof
import Superiority.Live.Gaps
import Superiority.Live.Toggles
import Superiority.Live.Buffering
import Superiority.Live.Ghosts
import Superiority.Wire.Frames
import Superiority.Wire.Raw
import Superiority.Bsn.MetadataSafety
import Superiority.Bsn.Strings
import Superiority.Library.Rowid
import Superiority.Live.Database
import Superiority.Live.Cursor
import Superiority.Library.Stateful
import Superiority.Sc2.Model
import Superiority.Sc2.Roster
import Superiority.Sc2.Profiles
import Superiority.Sc2.Friends
import Superiority.Sc2.LiveChat
import Superiority.Sc2.Whispers
import Superiority.Sc2.Receive
import Superiority.Sc2.Frames
import Superiority.Sc2.ClubLookups
import Superiority.Sc2.ProfileLookups
import Superiority.Sc2.Joins
import Superiority.Sc2.FriendsShown
import Superiority.SignIn.Credentials
import Superiority.Sweep.Packet
import Superiority.Sweep.Flushing
import Superiority.Sweep.Reassembly
import Superiority.Sweep.Protected
import Superiority.Sweep.Cuttings
import Superiority.Library.Padded
import Superiority.Updater.Versions
import Superiority.Updater.Numerals
import Superiority.Updater.VersionOrder
import Superiority.Library.Arrivals
import Superiority.Gateway.Bncs
import Superiority.Gateway.FriendEdits
import Superiority.Gateway.ReadBack
import Superiority.Scr.Messages
import Superiority.Scr.ChatState
import Superiority.Scr.FriendAccounts
import Superiority.Scr.Session
import Superiority.Scr.Rosters
import Superiority.Scr.Echoes
import Superiority.Library.Markup
import Superiority.Library.Measured
import Superiority.Ui.TextInput
import Superiority.Ui.Roster
import Superiority.Ui.InputInvariant
import Superiority.Ui.InputMethod
import Superiority.Library.Lexical
import Superiority.Updater.CachePaths
import Superiority.Updater.Engine
import Superiority.Updater.Lifecycle
import Superiority.Library.Timeline
import Superiority.Ui.History
import Superiority.Desktop.Folding
import Superiority.Library.Lines
import Superiority.Desktop.Preferences
import Superiority.Desktop.ReadBack
import Superiority.SignIn.WebAuth
import Superiority.Desktop.Population
import Superiority.Stimpak.Client
import Superiority.Stimpak.Cancel
import Superiority.Casing
import Superiority.Library.Firsts
import Superiority.Composer.People
import Superiority.Composer.Whisper
import Superiority.Scr.Rpc
import Superiority.Library.Feedback
import Superiority.Scr.Envelope
import Superiority.Wc3.Messages
import Superiority.Library.Keyed
import Superiority.Wc3.ChatState
import Superiority.Wc3.Halls
import Superiority.Wc3.Session
import Superiority.Wc3.Announced
import Superiority.Wc3.Live
import Superiority.Wc3.Mirror
import Superiority.Wc3.Clan
import Superiority.Wc3.Queue
import Superiority.Wc3.FriendBatch
import Superiority.Wc3.Membership
import Superiority.Bsn.RawBits
import Superiority.Native.PresenceRounds
import Superiority.Gateway.Session
import Superiority.Gateway.SessionLaw
import Superiority.SignIn.FileStore
import Superiority.Bsn.RoundTrip
import Superiority.Gateway.Peer
import Superiority.Gateway.Relay
import Superiority.Gateway.RightToAct
import Superiority.Library.Balance
import Superiority.Sc2.WhisperFates
import Superiority.Sc2.Mirrors
import Superiority.Gateway.Mirror
import Superiority.Sc2.Echoes

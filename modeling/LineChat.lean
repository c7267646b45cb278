import LineChat.Main
import LineChat.Proofs.Draft.Survivors
import LineChat.Proofs.Key.Cutting
import LineChat.Proofs.Key.Decoding
import LineChat.Proofs.Key.Faults
import LineChat.Proofs.Key.Reads
import LineChat.Proofs.Key.Resuming
import LineChat.Proofs.Key.Spelling
import LineChat.Proofs.Line.Unambiguous
import LineChat.Proofs.Room.Arrangement
import LineChat.Proofs.Room.Backlog
import LineChat.Proofs.Room.Delivery
import LineChat.Proofs.Room.Isolation
import LineChat.Proofs.Room.Notices
import LineChat.Proofs.Room.Numbers
import LineChat.Proofs.Room.Online
import LineChat.Proofs.Room.Overflow
import LineChat.Proofs.Room.Reach
import LineChat.Proofs.Room.Registry
import LineChat.Proofs.Room.Seats
import LineChat.Proofs.Room.Wording
import LineChat.Proofs.Screen.Attempts
import LineChat.Proofs.Screen.Calls
import LineChat.Proofs.Screen.Output
import LineChat.Proofs.Screen.Running
import LineChat.Proofs.Server.Authorship
import LineChat.Proofs.Server.Bursts
import LineChat.Proofs.Server.Chunking
import LineChat.Proofs.Server.Completion
import LineChat.Proofs.Server.Controls
import LineChat.Proofs.Server.Forgery
import LineChat.Proofs.Server.Happenings
import LineChat.Proofs.Server.LifeCycle
import LineChat.Proofs.Server.LineDiscipline
import LineChat.Proofs.Server.Listening
import LineChat.Proofs.Server.Losses
import LineChat.Proofs.Server.ReadFaults
import LineChat.Proofs.Server.Requests
import LineChat.Proofs.Server.Rest
import LineChat.Proofs.Server.Screens
import LineChat.Proofs.Server.Showing
import LineChat.Proofs.Server.Submissions
import LineChat.Proofs.Server.World
import LineChat.Proofs.Session.Admission
import LineChat.Proofs.Session.CleanPrompts
import LineChat.Proofs.Session.CleanTyping
import LineChat.Proofs.Session.Discipline
import LineChat.Proofs.Session.Doings
import LineChat.Proofs.Session.Drawing
import LineChat.Proofs.Session.Freshness
import LineChat.Proofs.Session.Hearing
import LineChat.Proofs.Session.OwnLines
import LineChat.Proofs.Session.Record
import LineChat.Proofs.Session.Relaying
import LineChat.Proofs.Session.Replies
import LineChat.Proofs.Session.Scene
import LineChat.Proofs.Session.Seating
import LineChat.Proofs.Session.SentLines
import LineChat.Proofs.Session.Terminal
import LineChat.Proofs.Session.Typing
import LineChat.Proofs.Text.Clean
import LineChat.Proofs.Text.Encoding

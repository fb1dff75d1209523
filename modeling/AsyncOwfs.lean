import AsyncOwfs.Bytes
import AsyncOwfs.Protocol
import AsyncOwfs.Protocol.RoundTrip
import AsyncOwfs.Message
import AsyncOwfs.Reader
import AsyncOwfs.Lib.Transition
import AsyncOwfs.Server
import AsyncOwfs.Server.Requests
import AsyncOwfs.Server.Replies
import AsyncOwfs.Server.Cancel
import AsyncOwfs.ScanLock
import AsyncOwfs.Server.Close
import AsyncOwfs.Lib.Dict
import AsyncOwfs.Lib.Hoare
import AsyncOwfs.Service
import AsyncOwfs.Scan
import AsyncOwfs.Scan.Effects
import AsyncOwfs.Scan.Location
import AsyncOwfs.Lib.Tracking
import AsyncOwfs.Scan.Semantics
import AsyncOwfs.Scan.Vanished
import AsyncOwfs.DevicePoll
import AsyncOwfs.DevicePoll.Running
import AsyncOwfs.Scanner
import AsyncOwfs.Scanner.Single
import AsyncOwfs.AddServer
import AsyncOwfs.AddServer.Trace
import AsyncOwfs.AddServer.Events
import AsyncOwfs.Scan.Stale
import AsyncOwfs.Scan.Teardown
import AsyncOwfs.Plant
import AsyncOwfs.Lib.Prog
import AsyncOwfs.Tasks
import AsyncOwfs.Tasks.Duties
import AsyncOwfs.Tasks.Commands
import AsyncOwfs.Tasks.Rounds
import AsyncOwfs.Tasks.Pollers
import AsyncOwfs.Tasks.Life
import AsyncOwfs.Tasks.Grammar
import AsyncOwfs.Tasks.Identity
import AsyncOwfs.Scan.Closing
import AsyncOwfs.Tasks.Trees
import AsyncOwfs.Tasks.Outlive
import AsyncOwfs.Scan.Picture
import AsyncOwfs.Scan.Replay
import AsyncOwfs.BusPoll
import AsyncOwfs.Protocol.Framing
import AsyncOwfs.Server.Resend
import AsyncOwfs.AddTask
import AsyncOwfs.DevicePoll.Locate
import AsyncOwfs.Scan.Manual
import AsyncOwfs.Lib.Slot
import AsyncOwfs.Struct
import AsyncOwfs.Struct.Writes
import AsyncOwfs.Struct.Spec
import AsyncOwfs.Struct.Retry
import AsyncOwfs.Struct.Accessors
import AsyncOwfs.Struct.Ensure
import AsyncOwfs.Lib.Utf8
import AsyncOwfs.Mock
import AsyncOwfs.Mock.Tree
import AsyncOwfs.Mock.Session
import AsyncOwfs.Mock.Agree
import AsyncOwfs.Struct.Values
import AsyncOwfs.Struct.Lists
import AsyncOwfs.Struct.Elements
import AsyncOwfs.Struct.Provided
import AsyncOwfs.Lib.Trunc
import AsyncOwfs.Mock.Paths
import AsyncOwfs.Mock.Errors
import AsyncOwfs.Mock.Listing
import AsyncOwfs.Alarm
import AsyncOwfs.Alarm.Temperature
import AsyncOwfs.Alarm.Voltage
import AsyncOwfs.Events
import AsyncOwfs.Events.Checker
import AsyncOwfs.Mock.Options
import AsyncOwfs.Mock.Reconnect
import AsyncOwfs.Server.Backoff
import AsyncOwfs.Mock.Again
import AsyncOwfs.Server.Alive
import AsyncOwfs.Struct.Loading
import AsyncOwfs.Alarm.Served
import AsyncOwfs.Alarm.Polled
import AsyncOwfs.Scan.Served

import MoonNet.Acceptor.Accept
import MoonNet.Acceptor.Backlog
import MoonNet.Acceptor.Settling
import MoonNet.Bfevent.Closing
import MoonNet.Bfevent.Duplex
import MoonNet.Bfevent.Echo
import MoonNet.Bfevent.Inbound
import MoonNet.Bfevent.Link
import MoonNet.Bfevent.Model
import MoonNet.Bfevent.Outbound
import MoonNet.Bfevent.Outflow
import MoonNet.Bfevent.PendingOutput
import MoonNet.Bfevent.Reentry
import MoonNet.Bfevent.StreamIntegrity
import MoonNet.Bfevent.Undisturbed
import MoonNet.Bfevent.Updates
import MoonNet.Bfevent.WriteCallback
import MoonNet.Buffer.Growth
import MoonNet.Buffer.Model
import MoonNet.Buffer.Refinement
import MoonNet.Buffer.Valid
import MoonNet.Event.Flags
import MoonNet.Event.Forwarding
import MoonNet.Event.Model
import MoonNet.Eventloop.InnerEvents
import MoonNet.Eventloop.Leaving
import MoonNet.Eventloop.Model
import MoonNet.Eventloop.Ownership
import MoonNet.Eventloop.Registration
import MoonNet.Eventloop.Stop
import MoonNet.Foundation.Balancing
import MoonNet.Foundation.Circular
import MoonNet.Foundation.Expiry
import MoonNet.Foundation.Family
import MoonNet.Foundation.History
import MoonNet.Foundation.Loop
import MoonNet.Foundation.Memory
import MoonNet.Foundation.Parts
import MoonNet.Foundation.PowerOfTwo
import MoonNet.Foundation.Progress
import MoonNet.Foundation.Readiness
import MoonNet.Foundation.Rotation
import MoonNet.Foundation.Runs
import MoonNet.Foundation.Simulation
import MoonNet.Foundation.Sole
import MoonNet.Foundation.Spread
import MoonNet.Foundation.Transfer
import MoonNet.Foundation.WaitSet
import MoonNet.Kernel.Results
import MoonNet.Kernel.SizeT
import MoonNet.Lfthread.Accepted
import MoonNet.Lfthread.Drain
import MoonNet.Lfthread.DrainRace
import MoonNet.Lfthread.Model
import MoonNet.Lfthread.Returning
import MoonNet.Lfthread.Shutdown
import MoonNet.Lfthreadpool.AtWork
import MoonNet.Lfthreadpool.Evenness
import MoonNet.Lfthreadpool.Joined
import MoonNet.Lfthreadpool.Model
import MoonNet.Lfthreadpool.Redispatch
import MoonNet.Lfthreadpool.Resizing
import MoonNet.Lfthreadpool.Rounds
import MoonNet.Lfthreadpool.Scale
import MoonNet.Lfthreadpool.Served
import MoonNet.Loopthread.Destruction
import MoonNet.Loopthread.Finishing
import MoonNet.Loopthread.Model
import MoonNet.Loopthread.Publication
import MoonNet.Loopthread.Steps
import MoonNet.Looptpool.Adjust
import MoonNet.Looptpool.Calls
import MoonNet.Looptpool.Count
import MoonNet.Looptpool.Dispatch
import MoonNet.Looptpool.Homes
import MoonNet.Looptpool.Model
import MoonNet.Looptpool.Removal
import MoonNet.Looptpool.Turns
import MoonNet.Ringbuff.Accesses
import MoonNet.Ringbuff.Drained
import MoonNet.Ringbuff.Exclusive
import MoonNet.Ringbuff.Model
import MoonNet.Ringbuff.Mpmc
import MoonNet.Ringbuff.Observers
import MoonNet.Ringbuff.Refinement
import MoonNet.Ringbuff.Shared
import MoonNet.Ringbuff.Spsc
import MoonNet.Ringbuff.Steps
import MoonNet.Ringbuff.Swap
import MoonNet.Ringbuff.Threads
import MoonNet.Ringbuff.Valid
import MoonNet.Server.Acceptcb
import MoonNet.Server.BaseEvent
import MoonNet.Server.DeferredDeletion
import MoonNet.Server.Events
import MoonNet.Server.FirstBytes
import MoonNet.Server.Handlers
import MoonNet.Server.ListeningSocket
import MoonNet.Server.LiveEvents
import MoonNet.Server.Serverloop
import MoonNet.Signalevent.Model
import MoonNet.Signalevent.Routing
import MoonNet.Threadpool.Bounds
import MoonNet.Threadpool.Counters
import MoonNet.Threadpool.Growing
import MoonNet.Threadpool.Model
import MoonNet.Threadpool.Returning
import MoonNet.Threadpool.Shutdown
import MoonNet.Threadpool.Started
import MoonNet.Threadpool.Steps
import MoonNet.Threadpool.Wakeups
import MoonNet.Timerevent.Firing
import MoonNet.Timerevent.Model
import MoonNet.Udpevent.Datagrams
import MoonNet.Udpevent.Model
import MoonNet.Udpevent.Receive
import MoonNet.Udpevent.Replies
import MoonNet.Udpevent.Serving
import MoonNet.Wrap.Line
import MoonNet.Wrap.Readline
import MoonNet.Wrap.Streams
import MoonNet.Wrap.Transfer

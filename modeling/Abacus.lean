import Abacus.Postgres.EventLog
import Abacus.Postgres.Fencing
import Abacus.RabbitMQ.Wire
import Abacus.Postgres.Epoch
import Abacus.Core.Artifacts
import Abacus.Worker.Solve
import Abacus.Worker.Supervisor
import Abacus.Worker.Settlement
import Abacus.Worker.Fleet
import Abacus.Postgres.ResultRef
import Abacus.Worker.Attempt
import Abacus.Worker.Effect
import Abacus.Chat.Handler
import Abacus.Postgres.RowKept
import Abacus.Chat.System
import Abacus.Postgres.LogSince
import Abacus.Chat.Resume
import Abacus.Chat.Acks
import Abacus.Chat.OneTurn
import Abacus.Postgres.Lifecycle
import Abacus.Postgres.Budget
import Abacus.Worker.Children
import Abacus.Worker.Release
import Abacus.Core.Outbound
import Abacus.Postgres.LockOrder
import Abacus.Postgres.MessageStatus
import Abacus.Chat.Turns
import Abacus.Chat.Resolution
import Abacus.RabbitMQ.Sweep
import Abacus.Memory.JobQueue
import Abacus.Memory.Simulation
import Abacus.Worker.Process
import Abacus.Chat.Written
import Abacus.Chat.Told
import Abacus.Chat.Replay
import Abacus.Core.Drain
import Abacus.Damping.Ledger
import Abacus.RabbitMQ.Damper
import Abacus.Worker.Watch
import Abacus.Worker.Defence
import Abacus.Postgres.Deduplication
import Abacus.RabbitMQ.Enqueue
import Abacus.Chat.LiveReplies
import Abacus.Postgres.Constraints
import Abacus.Memory.ChatSimulation
import Abacus.Api.Drained
import Abacus.Chat.Conversation
import Abacus.Worker.Answers
import Abacus.Postgres.Ending
import Abacus.Chat.Dialogue
import Abacus.Worker.Stopping
import Abacus.Worker.Pauses
import Abacus.Chat.Reconnect

import SessionShell.Compile.Bench
import SessionShell.Console.Standalone
import SessionShell.Interleaving
import SessionShell.Main
import SessionShell.Stream.Scripted
import SessionShell.Proofs.Action.Run
import SessionShell.Proofs.Focus.Seating
import SessionShell.Proofs.Shell.Outline
import SessionShell.Proofs.Focus.Steps
import SessionShell.Proofs.Focus.Operations
import SessionShell.Proofs.Focus.Exclusive
import SessionShell.Proofs.Focus.Waking
import SessionShell.Proofs.Action.Crowd
import SessionShell.Proofs.Shell.Reading
import SessionShell.Proofs.Action.Noted
import SessionShell.Proofs.Ending.Ledger
import SessionShell.Proofs.Ending.Attempts
import SessionShell.Proofs.Ending.Once
import SessionShell.Proofs.Job.Desk
import SessionShell.Proofs.Job.Notification
import SessionShell.Proofs.Calc.Syntax
import SessionShell.Proofs.Calc.Reads
import SessionShell.Proofs.Calc.Soundness
import SessionShell.Proofs.Calc.Completeness
import SessionShell.Proofs.Calc.Correctness
import SessionShell.Proofs.Program.Serving
import SessionShell.Proofs.Calc.Asking
import SessionShell.Proofs.Team.Pact
import SessionShell.Proofs.Team.Shadow
import SessionShell.Proofs.Action.Observed
import SessionShell.Proofs.Shell.Stillness
import SessionShell.Proofs.Batch.Record
import SessionShell.Proofs.Batch.Parties
import SessionShell.Proofs.Batch.Leaving
import SessionShell.Proofs.Batch.Scripts
import SessionShell.Proofs.Batch.Children
import SessionShell.Proofs.Batch.Services
import SessionShell.Proofs.Stream.Order
import SessionShell.Proofs.Stream.Service
import SessionShell.Proofs.Stream.Once
import SessionShell.Proofs.Batch.Books
import SessionShell.Proofs.Batch.Hosting
import SessionShell.Proofs.Batch.Starting
import SessionShell.Proofs.Ending.Codes
import SessionShell.Proofs.Batch.Collecting
import SessionShell.Proofs.Batch.Closing
import SessionShell.Proofs.Batch.Peace
import SessionShell.Proofs.Batch.Complete
import SessionShell.Proofs.Waiting.Gate
import SessionShell.Proofs.Waiting.Exits
import SessionShell.Proofs.Waiting.Awaited
import SessionShell.Proofs.Dialogue.Conversation
import SessionShell.Proofs.Dialogue.Lines
import SessionShell.Proofs.Dialogue.Piped
import SessionShell.Proofs.Prompt.Agreement
import SessionShell.Proofs.Prompt.Formatter
import SessionShell.Proofs.Files.Compiling
import SessionShell.Proofs.Job.Attached
import SessionShell.Proofs.Console.Chronicle
import SessionShell.Proofs.Preload.Aliases
import SessionShell.Proofs.CommandLine.Languages
import SessionShell.Proofs.Calc.Joined
import SessionShell.Proofs.Focus.Stranding
import SessionShell.Proofs.Pool.Log
import SessionShell.Proofs.Pool.Tally
import SessionShell.Proofs.Pool.Mill
import SessionShell.Proofs.Pool.Shifts
import SessionShell.Proofs.Pool.Duty
import SessionShell.Proofs.Pool.Once
import SessionShell.Proofs.Console.Press
import SessionShell.Proofs.Console.Shares
import SessionShell.Proofs.Console.Workers
import SessionShell.Proofs.Console.Overtaking
import SessionShell.Proofs.Job.Batching
import SessionShell.Proofs.Files.Exactness
import SessionShell.Proofs.Ending.Everyone
import SessionShell.Proofs.Job.Title
import SessionShell.Proofs.Calc.Faults
import SessionShell.Proofs.Semaphore.Fair
import SessionShell.Proofs.Sequence.Determined
import SessionShell.Proofs.Calc.Remains
import SessionShell.Proofs.Calc.Depth
import SessionShell.Proofs.Shell.Forking
import SessionShell.Proofs.Ending.Status
import SessionShell.Proofs.Dialogue.Statements
import SessionShell.Proofs.Console.Served
import SessionShell.Proofs.Tasks.Works
import SessionShell.Proofs.ParentHook.Kept
import SessionShell.Proofs.Calc.Written
import SessionShell.Proofs.Library.Archives
import SessionShell.Proofs.CommandLine.Groups

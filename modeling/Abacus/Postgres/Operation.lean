import Abacus.Postgres.JobStore
import Abacus.Postgres.ChatRepository
import Abacus.RowLocking.Interleaving

/-!
# The operations of the two stores

One label for every method of `PostgresJobStore` and `PostgresChatRepository`, with its arguments
and the identities the method draws from `uuid4`, and the transaction it runs
(`Operation.program`). `perform` runs it alone, as one atomic transaction.
-/

set_option autoImplicit false
set_option relaxedAutoImplicit false

namespace Abacus.Postgres

/-- A call of a store method. -/
inductive Operation
  | insertOrGet (jobId : Uuid) (request : JobRequest)
  | markPublished (jobId : Uuid)
  | getJob (jobId : Uuid)
  | cancel (jobId : Uuid)
  | claim (jobId leaseId : Uuid) (owner : String) (lease : Duration)
  | lapsedReservable (scan : List Uuid)
  | retireLapsed (scan : List Uuid)
  | unpublished (scan : List Uuid) (olderThan : Duration)
  | extend (lease : Lease) (duration : Duration)
  | ack (lease : Lease) (resultRef : Option String)
  | nack (lease : Lease) (error : String) (retryIn : Option Duration)
  | ensureSession (sessionId : Uuid)
  | recordUserMessage (sessionId : Uuid) (clientMsgId text : String) (messageId : Uuid)
  | byClientMsgId (sessionId : Uuid) (clientMsgId : String)
  | startAssistantMessage (sessionId messageId : Uuid)
  | completeAssistantMessage (messageId : Uuid) (text : String)
  | failAssistantMessage (messageId : Uuid)
  | logSince (sessionId : Uuid) (afterSeq limit : ℕ)

/-- Whether a call is one of the chat repository. -/
def onChat : Operation → Bool
  | .ensureSession _ => true
  | .recordUserMessage _ _ _ _ => true
  | .byClientMsgId _ _ => true
  | .startAssistantMessage _ _ => true
  | .completeAssistantMessage _ _ => true
  | .failAssistantMessage _ => true
  | .logSince _ _ _ => true
  | _ => false

/-- What a store method returns. -/
inductive Outcome
  | unit
  | enqueued (job : Job) (created : Bool)
  | found (job : Option Job)
  | claimed (lease : Option Lease)
  | jobIds (ids : List Uuid)
  | extended (lease : Lease)
  | nacked (job : Job)
  | recorded (message : RecordedUserMessage)
  | opened (message : StoredMessage)
  | log (rows : List SessionRow)
  deriving DecidableEq

/-- The transaction of a call made at `now`. -/
def Operation.program (now : Instant) : Operation → Sql Outcome
  | .insertOrGet jobId request =>
    (fun created ↦ .enqueued created.1 created.2) <$> Postgres.insertOrGet now jobId request
  | .markPublished jobId => (fun _ ↦ .unit) <$> Postgres.markPublished now jobId
  | .getJob jobId => .found <$> Postgres.getJob jobId
  | .cancel jobId => .found <$> Postgres.cancel jobId
  | .claim jobId leaseId owner lease => .claimed <$> Postgres.claim now jobId leaseId owner lease
  | .lapsedReservable scan => .jobIds <$> Postgres.lapsedReservable now scan
  | .retireLapsed scan => .jobIds <$> Postgres.retireLapsed now scan
  | .unpublished scan olderThan => .jobIds <$> Postgres.unpublished now scan olderThan
  | .extend lease duration => .extended <$> Postgres.extend now lease duration
  | .ack lease resultRef => (fun _ ↦ .unit) <$> Postgres.ack lease resultRef
  | .nack lease error retryIn => .nacked <$> Postgres.nack now lease error retryIn
  | .ensureSession sessionId => (fun _ ↦ .unit) <$> Postgres.ensureSession sessionId
  | .recordUserMessage sessionId clientMsgId text messageId =>
    .recorded <$> Postgres.recordUserMessage sessionId clientMsgId text messageId
  | .byClientMsgId sessionId clientMsgId =>
    .recorded <$> Postgres.byClientMsgId sessionId clientMsgId
  | .startAssistantMessage sessionId messageId =>
    .opened <$> Postgres.startAssistantMessage sessionId messageId
  | .completeAssistantMessage messageId text =>
    (fun _ ↦ .unit) <$> Postgres.completeAssistantMessage messageId text
  | .failAssistantMessage messageId => (fun _ ↦ .unit) <$> Postgres.failAssistantMessage messageId
  | .logSince sessionId afterSeq limit => .log <$> Postgres.logSince sessionId afterSeq limit

/-- A call as one atomic transaction: its result, or the error it raises, and the database after
it. -/
def perform (now : Instant) (operation : Operation) (database : Database) :
    Except StoreError Outcome × Database :=
  (operation.program now).run database

/-- A call and the moment its transaction takes for `now()`. -/
structure Call where
  now : Instant
  operation : Operation

/-- The transaction of a call. -/
def Call.program (call : Call) : Sql Outcome :=
  call.operation.program call.now

/-- The commit of a call. -/
abbrev Commit := RowLocking.Commit Call RowKey Row LogEntry Outcome

/-- Backends running calls of the stores on one database. -/
abbrev System (Backend : Type) :=
  RowLocking.System Backend Call RowKey Row LogEntry StoreError Outcome

/-- A run of any number of backends from empty tables: each calls any methods, with their statements
interleaved and each transaction free to fail at any of them. -/
abbrev Execution {Backend : Type} [DecidableEq Backend] (history : List Commit)
    (system : System Backend) : Prop :=
  RowLocking.Execution Call.program Database.empty history system

end Abacus.Postgres

import SorobanExplorer.Filters.JsValue
import SorobanExplorer.Library.Run

/-!
Owns one plugin of the decoder registry: its sandbox with the workers that this has started, the
calls that wait for them, and the violations that the plugin is charged with.

A call is known by its place in the order of calls, where the code counts the posted ones with
`nextId`. A worker runs at its own pace: it stops some time after `terminate()`, and what it has
posted comes to the host later, its `exit` event last. Timers fire in any order.
-/

namespace SorobanExplorer.Indexer

open Library
open Filters (JsString)

namespace PluginSandbox

abbrev CallId := ℕ

abbrev WorkerId := ℕ

/-! ### Workers -/

/-- The `kind` of a `PluginViolation`. -/
inductive Kind where
  | timeout
  | memory
  | output_limit
  | error
  | crash
deriving DecidableEq

/-- What `decode` makes of an output: `null`, plain data that `validatePluginOutput` accepts, or
other data. -/
inductive Output where
  | nothing
  | valid
  | malformed
deriving DecidableEq

/-- What a worker answers. An output is a text that the plugin's own `JSON` object makes: it may be
one that `JSON.parse` rejects. -/
inductive Answer where
  | output (parsed : Option Output)
  | error (message : JsString) (kind : Kind)
deriving DecidableEq

inductive Message where
  | ready
  | reply (id : CallId) (answer : Answer)
deriving DecidableEq

inductive Stage where
  /-- `sandboxWorker.js` is being loaded. -/
  | booting
  | idle
  | executing (id : CallId)
  /-- With the call during which it crashed. -/
  | dead (crashed : Option CallId)
deriving DecidableEq

def Stage.alive : Stage → Bool
  | .dead _ => false
  | .booting | .idle | .executing _ => true

structure Worker where
  stage : Stage
  /-- `terminate()` was called. -/
  terminated : Bool
  /-- `ready`: pending, resolved or rejected. -/
  ready : Option Bool
  inbox : List CallId
  /-- On their way to the host: messages, the `error` event and the `exit` event. -/
  messages : List Message
  failure : Option Kind
  exits : Bool

namespace Worker

def fresh : Worker := ⟨.booting, false, none, [], [], none, false⟩

def crashedIn (worker : Worker) (id : CallId) : Bool := worker.stage = .dead (some id)

def runs (worker : Worker) (id : CallId) : Bool :=
  worker.stage = .executing id || worker.crashedIn id

def boot (worker : Worker) : Worker :=
  { worker with stage := .idle, messages := worker.messages ++ [.ready] }

def begin (worker : Worker) (id : CallId) (rest : List CallId) : Worker :=
  { worker with stage := .executing id, inbox := rest }

def answer (worker : Worker) (id : CallId) (answer : Answer) : Worker :=
  { worker with stage := .idle, messages := worker.messages ++ [.reply id answer] }

def crash (worker : Worker) (kind : Kind) : Worker :=
  let crashed := match worker.stage with
    | .executing id => some id
    | .booting | .idle | .dead _ => none
  { worker with stage := .dead crashed, failure := some kind, exits := true }

def stop (worker : Worker) : Worker := { worker with stage := .dead none, exits := true }

def terminate (worker : Worker) : Worker := { worker with terminated := true }

/-- `worker.postMessage(…)` -/
def post (worker : Worker) (id : CallId) : Worker := { worker with inbox := worker.inbox ++ [id] }

end Worker

/-! ### Calls -/

/-- Why a call was rejected. `own` says that a worker was executing this call, or had crashed while
it did: what the code does not ask. -/
inductive Cause where
  | timer (own : Bool)
  | failure (kind : Kind) (own : Bool)
  | exit
  /-- The worker it waited for failed at its start. -/
  | start
  /-- `this.worker` was `null` at `postMessage`. -/
  | unposted
  | answer (kind : Kind)
deriving DecidableEq

inductive Outcome where
  | answered (output : Output)
  | rejected (cause : Cause)
deriving DecidableEq

def Outcome.violates : Outcome → Bool
  | .answered output => output = .malformed
  | .rejected _ => true

inductive Phase where
  /-- At `await this.ready` of a worker. -/
  | awaiting (worker : WorkerId)
  /-- Past it. -/
  | ready
  | posted (worker : WorkerId)
  | settled
  /-- `decode` has seen the result. -/
  | concluded
deriving DecidableEq

def Phase.settle : Phase → Phase
  | .concluded => .concluded
  | .awaiting _ | .ready | .posted _ | .settled => .settled

/-- The outcomes are what the promise of the call was resolved or rejected with, at first and
again. -/
structure Call where
  phase : Phase
  outcomes : List Outcome
deriving DecidableEq

namespace Call

def settle (call : Call) (outcome : Outcome) : Call :=
  ⟨call.phase.settle, call.outcomes ++ [outcome]⟩

def wake (w : WorkerId) (call : Call) : Call :=
  if call.phase = .awaiting w then { call with phase := .ready } else call

def refuse (w : WorkerId) (call : Call) : Call :=
  if call.phase = .awaiting w then call.settle (.rejected .start) else call

def post (w : WorkerId) (call : Call) : Call := { call with phase := .posted w }

def conclude (call : Call) : Call := { call with phase := .concluded }

end Call

/-! ### The sandbox -/

structure State where
  workers : List Worker
  /-- `this.worker` -/
  worker : Option WorkerId
  calls : List Call
  /-- The keys of `this.pending`: the timers of these calls are armed. -/
  pending : List CallId
  /-- The calls that the plugin was charged with; `violations` is their number. -/
  violations : List CallId
  disabled : Bool

namespace State

def empty : State := ⟨[], none, [], [], [], false⟩

def onWorker (state : State) (w : WorkerId) (effect : Worker → Worker) : State :=
  { state with workers := state.workers.modify w effect }

def onCall (state : State) (id : CallId) (effect : Call → Call) : State :=
  { state with calls := state.calls.modify id effect }

/-- `_start()` -/
def start (state : State) : State :=
  { state with
    workers := state.workers ++ [.fresh]
    worker := some state.workers.length }

/-- `restart()` and `close()` -/
def restart (state : State) : State :=
  match state.worker with
  | some w => { state.onWorker w .terminate with worker := none }
  | none => state

/-- `_fail(…)` -/
def fail (state : State) (cause : CallId → Cause) : State :=
  { state with
    calls := state.calls.mapIdx fun id call =>
      if id ∈ state.pending then call.settle (.rejected (cause id)) else call
    pending := [] }

/-- `this.pending.set(id, …)`, and the timer is armed. -/
def enter (state : State) (id : CallId) : State :=
  { state with pending := state.pending ++ [id] }

/-- `this.pending.delete(id)`, and the timer goes. -/
def delete (state : State) (id : CallId) : State :=
  { state with pending := state.pending.filter (· ≠ id) }

def runs (state : State) (id : CallId) : Bool := state.workers.any (Worker.runs · id)

/-- A call that comes to `await this.ready` of a worker. -/
def arriving (state : State) (w : WorkerId) : Call :=
  match state.workers[w]?.bind Worker.ready with
  | none => ⟨.awaiting w, []⟩
  | some true => ⟨.ready, []⟩
  | some false => ⟨.settled, [.rejected .start]⟩

/-- `call(event)` up to its `await` -/
def call (state : State) : State :=
  match state.worker with
  | some w => { state with calls := state.calls ++ [state.arriving w] }
  | none => { state.start with calls := state.calls ++ [state.start.arriving state.workers.length] }

/-- `call(event)` after its `await`: `this.worker` may be `null` by then. -/
def proceed (state : State) (id : CallId) : State :=
  match state.worker with
  | some w => ((state.enter id).onCall id (Call.post w)).onWorker w (Worker.post · id)
  | none => (state.enter id).onCall id (Call.settle · (.rejected .unposted))

def timer (state : State) (id : CallId) : State :=
  ((state.delete id).onCall id (Call.settle · (.rejected (.timer (state.runs id))))).restart

/-- The `message` listeners at `{ ready: true }` -/
def ready (state : State) (w : WorkerId) : State :=
  { state with calls := state.calls.map (Call.wake w) }

/-- The `message` listener at an answer. An empty error text is falsy, and then there is no output
to parse: `JSON.parse` throws, as it does at a text that is none, and the call is lost. -/
def reply (state : State) (id : CallId) (answer : Answer) : State :=
  if id ∈ state.pending then
    let deleted := state.delete id
    match answer with
    | .output (some output) => deleted.onCall id (Call.settle · (.answered output))
    | .output none => deleted
    | .error message kind =>
      if message = [] then deleted
      else deleted.onCall id (Call.settle · (.rejected (.answer kind)))
  else state

/-- The `error` listeners -/
def failure (state : State) (w : WorkerId) (worker : Worker) (kind : Kind) : State :=
  { state with calls := state.calls.map (Call.refuse w) }.fail
    fun id => .failure kind (worker.crashedIn id)

/-- The `exit` listener -/
def exit (state : State) (w : WorkerId) : State :=
  { state with worker := if state.worker = some w then none else state.worker }.fail fun _ => .exit

/-- `decode` at the result of a call. -/
def conclude (state : State) (violationLimit : ℕ) (id : CallId) (outcome : Outcome) : State :=
  let concluded := state.onCall id .conclude
  if outcome.violates then
    let charged := { concluded with violations := concluded.violations ++ [id] }
    if violationLimit ≤ charged.violations.length then { charged with disabled := true }.restart
    else charged
  else concluded

end State

/-! ### Steps -/

inductive Action where
  | call
  | proceed (id : CallId)
  | timer (id : CallId)
  /-- A message, the `error` event or the `exit` event of a worker reaches the host. -/
  | message (w : WorkerId)
  | failure (w : WorkerId)
  | exit (w : WorkerId)
  | boot (w : WorkerId)
  | begin (w : WorkerId)
  | answer (w : WorkerId) (answer : Answer)
  | crash (w : WorkerId) (kind : Kind)
  | stop (w : WorkerId)
  | conclude (id : CallId)
  | close
deriving DecidableEq

def Action.internal : Action → Bool
  | .call | .crash .. | .close => false
  | .proceed _ | .timer _ | .message _ | .failure _ | .exit _ | .boot _ | .begin _ | .answer ..
  | .stop _ | .conclude _ => true

def Action.due : Action → Bool
  | .call | .crash .. | .close | .begin _ | .answer .. => false
  | .proceed _ | .timer _ | .message _ | .failure _ | .exit _ | .boot _ | .stop _ | .conclude _ =>
    true

inductive Step (violationLimit : ℕ) (state : State) : Action → State → Prop
  | call (enabled : state.disabled = false) : Step violationLimit state .call state.call
  | proceed {id : CallId} {call : Call} (found : state.calls[id]? = some call)
      (ready : call.phase = .ready) :
      Step violationLimit state (.proceed id) (state.proceed id)
  | timer {id : CallId} (armed : id ∈ state.pending) :
      Step violationLimit state (.timer id) (state.timer id)
  | ready {w : WorkerId} {worker : Worker} {rest : List Message}
      (found : state.workers[w]? = some worker) (first : worker.messages = .ready :: rest) :
      Step violationLimit state (.message w) ((state.ready w).onWorker w fun worker =>
        { worker with messages := rest, ready := worker.ready.or (some true) })
  | reply {w : WorkerId} {worker : Worker} {id : CallId} {answer : Answer} {rest : List Message}
      (found : state.workers[w]? = some worker)
      (first : worker.messages = .reply id answer :: rest) :
      Step violationLimit state (.message w) ((state.reply id answer).onWorker w fun worker =>
        { worker with messages := rest })
  | failure {w : WorkerId} {worker : Worker} {kind : Kind}
      (found : state.workers[w]? = some worker) (reported : worker.failure = some kind) :
      Step violationLimit state (.failure w) ((state.failure w worker kind).onWorker w fun worker =>
        { worker with failure := none, ready := worker.ready.or (some false) })
  | exit {w : WorkerId} {worker : Worker} (found : state.workers[w]? = some worker)
      (exits : worker.exits = true) (drained : worker.messages = [])
      (reported : worker.failure = none) :
      Step violationLimit state (.exit w) ((state.exit w).onWorker w fun worker =>
        { worker with exits := false })
  | boot {w : WorkerId} {worker : Worker} (found : state.workers[w]? = some worker)
      (booting : worker.stage = .booting) :
      Step violationLimit state (.boot w) (state.onWorker w .boot)
  | begin {w : WorkerId} {worker : Worker} {id : CallId} {rest : List CallId}
      (found : state.workers[w]? = some worker) (idle : worker.stage = .idle)
      (first : worker.inbox = id :: rest) :
      Step violationLimit state (.begin w) (state.onWorker w (Worker.begin · id rest))
  | answer {w : WorkerId} {worker : Worker} {id : CallId} {answer : Answer}
      (found : state.workers[w]? = some worker) (executing : worker.stage = .executing id) :
      Step violationLimit state (.answer w answer) (state.onWorker w (Worker.answer · id answer))
  | crash {w : WorkerId} {worker : Worker} {kind : Kind} (found : state.workers[w]? = some worker)
      (alive : worker.stage.alive = true) :
      Step violationLimit state (.crash w kind) (state.onWorker w (Worker.crash · kind))
  | stop {w : WorkerId} {worker : Worker} (found : state.workers[w]? = some worker)
      (terminated : worker.terminated = true) (alive : worker.stage.alive = true) :
      Step violationLimit state (.stop w) (state.onWorker w .stop)
  | conclude {id : CallId} {call : Call} {outcome : Outcome} (found : state.calls[id]? = some call)
      (settled : call.phase = .settled) (result : call.outcomes.head? = some outcome) :
      Step violationLimit state (.conclude id) (state.conclude violationLimit id outcome)
  | close : Step violationLimit state .close state.restart

end PluginSandbox

end SorobanExplorer.Indexer

import SorobanExplorer.Library.Run
import Mathlib.Logic.Function.Basic
import Mathlib.Tactic.Common

/-!
Owns the purge queue of the CDN: keys are collected, a timer or a caller schedules a flush, and a
flush purges the collected keys batch after batch, while more keys are collected.

Health is one flag, which every batch sets. A failed batch is not tried again.
-/

namespace SorobanExplorer.Indexer.CdnPurge

open Library

abbrev Key := String

abbrev TimerId := ℕ

def MAX_KEYS_PER_REQUEST : ℕ := 256

/-- A flush: the batch that is being purged and the keys after it. `sentAt` is how often each key
had been enqueued when the batch was sent. -/
structure Flush where
  batch : List Key
  rest : List Key
  sentAt : Key → ℕ

/-- The queue, with the timers that are armed and the flushes that `inFlight` waits for. Beside it
stand how often each key was enqueued, and how often it had been when its last successful purge
was sent. -/
structure Queue where
  pending : List Key
  timer : Option TimerId
  armed : List TimerId
  nextTimer : TimerId
  scheduled : ℕ
  running : Option Flush
  healthy : Bool
  enqueued : Key → ℕ
  purged : Key → ℕ

inductive Action where
  | enqueue (keys : List Key)
  | timeout (timer : TimerId)
  | flushNow
  /-- `inFlight` resolves, and the next flush begins. -/
  | flush
  | succeeded
  | failed

namespace Queue

def start : Queue := ⟨[], none, [], 0, 0, none, true, fun _ => 0, fun _ => 0⟩

/-- `pending.add(key)` -/
def add (pending : List Key) (key : Key) : List Key :=
  if key ∈ pending then pending else pending ++ [key]

/-- `if (!timer) timer = setTimeout(…)` -/
def arm (queue : Queue) : Queue :=
  match queue.timer with
  | some _ => queue
  | none =>
    { queue with
      timer := some queue.nextTimer
      armed := queue.nextTimer :: queue.armed
      nextTimer := queue.nextTimer + 1 }

/-- `for (const k of keys) pending.add(k)` -/
def collect (queue : Queue) (keys : List Key) : Queue :=
  { queue with
    pending := keys.foldl add queue.pending
    enqueued := fun key => if key ∈ keys then queue.enqueued key + 1 else queue.enqueued key }

def enqueue (queue : Queue) (keys : List Key) : Queue := (queue.collect keys).arm

def send (queue : Queue) (keys : List Key) : Queue :=
  { queue with
    running := if keys = [] then none
      else some ⟨keys.take MAX_KEYS_PER_REQUEST, keys.drop MAX_KEYS_PER_REQUEST, queue.enqueued⟩ }

def flush (queue : Queue) : Queue :=
  send { queue with pending := [], timer := none } queue.pending

def succeeded (queue : Queue) (flush : Flush) : Queue :=
  send { queue with
    healthy := true
    purged := fun key => if key ∈ flush.batch then flush.sentAt key else queue.purged key }
    flush.rest

def failed (queue : Queue) (flush : Flush) : Queue :=
  send { queue with healthy := false } flush.rest

end Queue

/-- The adapter `none` makes the queue ignore what is enqueued. -/
inductive Step (adapter : String) : Queue → Action → Queue → Prop
  | enqueue {queue : Queue} (keys : List Key) (sent : adapter ≠ "none") :
      Step adapter queue (.enqueue keys) (queue.enqueue keys)
  | ignored {queue : Queue} (keys : List Key) (none : adapter = "none") :
      Step adapter queue (.enqueue keys) queue
  | timeout {queue : Queue} (timer : TimerId) (armed : timer ∈ queue.armed) :
      Step adapter queue (.timeout timer)
        { queue with armed := queue.armed.erase timer, scheduled := queue.scheduled + 1 }
  | flushNow {queue : Queue} :
      Step adapter queue .flushNow
        { queue with
          armed := match queue.timer with
            | some timer => queue.armed.erase timer
            | none => queue.armed
          scheduled := queue.scheduled + 1 }
  | flush {queue : Queue} {later : ℕ} (scheduled : queue.scheduled = later + 1)
      (idle : queue.running = none) :
      Step adapter queue .flush { queue with scheduled := later }.flush
  | succeeded {queue : Queue} {flush : Flush} (running : queue.running = some flush) :
      Step adapter queue .succeeded (queue.succeeded flush)
  | failed {queue : Queue} {flush : Flush} (running : queue.running = some flush) :
      Step adapter queue .failed (queue.failed flush)

theorem deterministic (adapter : String) : Deterministic (Step adapter) := by
  intro before action first second one two
  cases one with
  | enqueue keys sent =>
    cases two with
    | enqueue => rfl
    | ignored _ none => exact absurd none sent
  | ignored keys none =>
    cases two with
    | enqueue _ sent => exact absurd none sent
    | ignored => rfl
  | timeout | flushNow =>
    cases two
    rfl
  | flush scheduled =>
    cases two with
    | flush other =>
      cases scheduled.symm.trans other
      rfl
  | succeeded running =>
    cases two with
    | succeeded other =>
      cases running.symm.trans other
      rfl
  | failed running =>
    cases two with
    | failed other =>
      cases running.symm.trans other
      rfl

/-! ### Keys that are left behind -/

namespace Queue

def Stale (queue : Queue) (key : Key) : Prop := queue.purged key < queue.enqueued key

instance (queue : Queue) (key : Key) : Decidable (queue.Stale key) :=
  inferInstanceAs (Decidable (_ < _))

def InFlight (queue : Queue) (key : Key) : Prop :=
  ∃ flush, queue.running = some flush ∧ (key ∈ flush.batch ∨ key ∈ flush.rest)

def Forgotten (queue : Queue) (key : Key) : Prop :=
  queue.Stale key ∧ key ∉ queue.pending ∧ ¬ queue.InFlight key

/-- While the queue is healthy every stale key is pending or in flight; batches are small enough;
and where keys are pending, a flush will begin. -/
structure Sound (queue : Queue) : Prop where
  healthy : queue.healthy = true → ∀ key, queue.Stale key → key ∈ queue.pending ∨ queue.InFlight key
  batch : ∀ flush, queue.running = some flush → flush.batch.length ≤ MAX_KEYS_PER_REQUEST
  pending : queue.pending ≠ [] → queue.armed ≠ [] ∨ 0 < queue.scheduled

def Spared (queue : Queue) : Action → Prop
  | .succeeded => ∀ key, ¬ queue.Forgotten key
  | _ => True

/-- `sent`: a key of the batch that was enqueued again since is pending again. -/
structure Tracked (queue : Queue) : Prop where
  healthy : queue.healthy = true → ∀ key, ¬ queue.Forgotten key
  sent : ∀ flush, queue.running = some flush → ∀ key ∈ flush.batch,
    flush.sentAt key < queue.enqueued key → key ∈ queue.pending
  batch : ∀ flush, queue.running = some flush → flush.batch.length ≤ MAX_KEYS_PER_REQUEST
  timer : ∀ timer, queue.timer = some timer → timer ∈ queue.armed ∨ 0 < queue.scheduled

structure Kept (queue : Queue) : Prop extends Tracked queue where
  pending : queue.pending ≠ [] → queue.timer ≠ none ∨ 0 < queue.scheduled

variable {queue before after : Queue} {keys : List Key} {key : Key} {action : Action}

theorem mem_foldl_add {pending : List Key} :
    key ∈ keys.foldl add pending ↔ key ∈ pending ∨ key ∈ keys := by
  induction keys generalizing pending with
  | nil => simp
  | cons first keys ih =>
    have added : key ∈ add pending first ↔ key ∈ pending ∨ key = first := by
      unfold add
      split
      · next listed => exact ⟨.inl, fun either => either.elim id fun same => same ▸ listed⟩
      · simp
    rw [List.foldl_cons, ih, added, List.mem_cons, or_assoc]

theorem inFlight_send : (queue.send keys).InFlight key ↔ key ∈ keys := by
  unfold InFlight send
  constructor
  · rintro ⟨flush, running, listed⟩
    dsimp only at running
    split at running
    · nomatch running
    · cases running
      rw [← List.take_append_drop MAX_KEYS_PER_REQUEST keys]
      exact List.mem_append.mpr listed
  · intro listed
    refine ⟨_, if_neg (List.ne_nil_of_mem listed), List.mem_append.mp ?_⟩
    rwa [List.take_append_drop]

theorem running_send {flush : Flush} (running : (queue.send keys).running = some flush) :
    flush.sentAt = queue.enqueued ∧ flush.batch.length ≤ MAX_KEYS_PER_REQUEST := by
  change (if keys = [] then none else some _) = some flush at running
  split at running
  · nomatch running
  · cases running
    exact ⟨rfl, List.length_take_le ..⟩

/-! ### One step -/

section Forgotten

theorem forgotten_of_arm (forgotten : queue.arm.Forgotten key) : queue.Forgotten key := by
  unfold arm at forgotten
  split at forgotten <;> exact forgotten

theorem forgotten_of_collect (forgotten : (queue.collect keys).Forgotten key) :
    queue.Forgotten key := by
  obtain ⟨stale, absent, out⟩ := forgotten
  change key ∉ keys.foldl add queue.pending at absent
  rw [mem_foldl_add, not_or] at absent
  change _ < (if key ∈ keys then _ else _) at stale
  rw [if_neg absent.2] at stale
  exact ⟨stale, absent.1, out⟩

theorem forgotten_of_flush {later : ℕ} (idle : queue.running = none)
    (forgotten : { queue with scheduled := later }.flush.Forgotten key) :
    queue.Forgotten key := by
  refine ⟨forgotten.1, fun pending => forgotten.2.2 (inFlight_send.mpr pending), ?_⟩
  rintro ⟨flush, running, -⟩
  nomatch idle.symm.trans running

theorem forgotten_succeeded_iff {flush : Flush} (running : queue.running = some flush)
    (sent : ∀ key ∈ flush.batch, flush.sentAt key < queue.enqueued key → key ∈ queue.pending) :
    (queue.succeeded flush).Forgotten key ↔ queue.Forgotten key := by
  constructor
  · rintro ⟨stale, absent, out⟩
    have unsent : key ∉ flush.rest := fun listed => out (inFlight_send.mpr listed)
    change (if key ∈ flush.batch then flush.sentAt key else queue.purged key) < _ at stale
    split at stale
    · next listed => exact absurd (sent key listed stale) absent
    · next unlisted =>
        refine ⟨stale, absent, ?_⟩
        rintro ⟨other, same, either⟩
        cases running.symm.trans same
        exact either.elim unlisted unsent
  · rintro ⟨stale, absent, out⟩
    have unlisted : key ∉ flush.batch := fun listed => out ⟨flush, running, .inl listed⟩
    have unsent : key ∉ flush.rest := fun listed => out ⟨flush, running, .inr listed⟩
    refine ⟨?_, absent, fun sent => unsent (inFlight_send.mp sent)⟩
    change (if key ∈ flush.batch then _ else _) < _
    rw [if_neg unlisted]
    exact stale

theorem forgotten_of_failed {flush : Flush} (running : queue.running = some flush)
    (forgotten : (queue.failed flush).Forgotten key) :
    queue.Forgotten key ∨ key ∈ flush.batch := by
  obtain ⟨stale, absent, out⟩ := forgotten
  by_cases listed : key ∈ flush.batch
  · exact .inr listed
  · refine .inl ⟨stale, absent, ?_⟩
    rintro ⟨other, same, either⟩
    cases running.symm.trans same
    exact either.elim listed fun later => out (inFlight_send.mpr later)

end Forgotten

namespace Kept

theorem start : Kept Queue.start where
  healthy := fun _ _ forgotten => absurd forgotten.1 (Nat.lt_irrefl 0)
  sent := nofun
  batch := nofun
  timer := nofun
  pending := fun nonempty => absurd rfl nonempty

theorem sound (kept : queue.Kept) : queue.Sound where
  healthy well key stale := by
    by_contra neither
    rw [not_or] at neither
    exact kept.healthy well key ⟨stale, neither.1, neither.2⟩
  batch := kept.batch
  pending nonempty := by
    obtain set | scheduled := kept.pending nonempty
    · obtain ⟨timer, same⟩ := Option.ne_none_iff_exists'.mp set
      exact (kept.timer timer same).imp_left List.ne_nil_of_mem
    · exact .inr scheduled

theorem arm (tracked : queue.Tracked) : queue.arm.Kept := by
  unfold Queue.arm
  split
  · next timer same => exact ⟨tracked, fun _ => .inl (same ▸ Option.some_ne_none timer)⟩
  · refine ⟨⟨tracked.healthy, tracked.sent, tracked.batch, fun timer same => ?_⟩,
      fun _ => .inl (Option.some_ne_none _)⟩
    cases same
    exact .inl List.mem_cons_self

theorem enqueue (kept : queue.Kept) (keys : List Key) : (queue.enqueue keys).Kept := by
  refine arm ⟨fun well key forgotten => kept.healthy well key (forgotten_of_collect forgotten),
    fun flush running key listed later => mem_foldl_add.mpr ?_, kept.batch, kept.timer⟩
  by_contra absent
  rw [not_or] at absent
  change _ < (if key ∈ keys then _ else _) at later
  rw [if_neg absent.2] at later
  exact absent.1 (kept.sent flush running key listed later)

theorem schedule (kept : queue.Kept) (armed : List TimerId) :
    { queue with armed, scheduled := queue.scheduled + 1 }.Kept :=
  ⟨⟨kept.healthy, kept.sent, kept.batch, fun _ _ => .inr (Nat.succ_pos _)⟩,
    fun _ => .inr (Nat.succ_pos _)⟩

theorem sent_send {flush : Flush} (running : (queue.send keys).running = some flush)
    {P : Prop} (later : flush.sentAt key < queue.enqueued key) : P := by
  rw [(running_send running).1] at later
  exact absurd later (Nat.lt_irrefl _)

theorem flush (kept : queue.Kept) (idle : queue.running = none) (later : ℕ) :
    { queue with scheduled := later }.flush.Kept :=
  ⟨⟨fun well key forgotten => kept.healthy well key (forgotten_of_flush idle forgotten),
    fun _ running _ _ again => sent_send running again,
    fun _ running => (running_send running).2, nofun⟩, fun nonempty => absurd rfl nonempty⟩

theorem succeeded (kept : queue.Kept) {flush : Flush} (running : queue.running = some flush)
    (spared : ∀ key, ¬ queue.Forgotten key) : (queue.succeeded flush).Kept :=
  ⟨⟨fun _ key forgotten =>
      spared key ((forgotten_succeeded_iff running (kept.sent flush running)).mp forgotten),
    fun _ sent _ _ again => sent_send sent again,
    fun _ sent => (running_send sent).2, kept.timer⟩, kept.pending⟩

theorem failed (kept : queue.Kept) (flush : Flush) : (queue.failed flush).Kept :=
  ⟨⟨nofun, fun _ sent _ _ again => sent_send sent again,
    fun _ sent => (running_send sent).2, kept.timer⟩, kept.pending⟩

theorem step {adapter : String} (kept : before.Kept) (spared : before.Spared action)
    (taken : Step adapter before action after) : after.Kept := by
  cases taken with
  | enqueue keys => exact kept.enqueue keys
  | ignored => exact kept
  | timeout | flushNow => exact kept.schedule _
  | flush _ idle => exact kept.flush idle _
  | succeeded running => exact kept.succeeded running spared
  | failed => exact kept.failed _

end Kept

/-- A key is left behind by a batch that fails and by nothing else. -/
theorem forgotten_of_step {adapter : String} (kept : before.Kept)
    (taken : Step adapter before action after) (forgotten : after.Forgotten key) :
    before.Forgotten key ∨
      action = .failed ∧ ∃ flush, before.running = some flush ∧ key ∈ flush.batch := by
  cases taken with
  | enqueue => exact .inl (forgotten_of_collect (forgotten_of_arm forgotten))
  | ignored | timeout | flushNow => exact .inl forgotten
  | flush _ idle => exact .inl (forgotten_of_flush idle forgotten)
  | succeeded running =>
    exact .inl ((forgotten_succeeded_iff running (kept.sent _ running)).mp forgotten)
  | failed running =>
    exact (forgotten_of_failed running forgotten).imp_right fun listed =>
      ⟨rfl, _, running, listed⟩

/-! ### Whole runs -/

/-- The queue keeps its promise in exactly the runs in which no purge succeeds while the key of a
failed one is left behind. -/
theorem sound_iff_eachStep (adapter : String) {actions : List Action} {final : Queue}
    (run : Run (Step adapter) .start actions final) :
    (Along (Step adapter) .start actions fun _ queue => queue.Sound) ↔
      EachStep (Step adapter) .start actions Spared := by
  refine Run.along_iff_eachStep (I := fun _ queue => queue.Kept) (deterministic adapter) run
    Kept.start (fun _ _ _ kept => kept.sound)
    (fun _ _ _ _ _ kept spared taken => kept.step spared taken) ?_
  intro _ action before after _ kept taken sound
  cases action with
  | succeeded =>
    intro key forgotten
    cases taken with
    | succeeded running =>
      obtain ⟨stale, absent, out⟩ :=
        (forgotten_succeeded_iff running (kept.sent _ running)).mpr forgotten
      exact (sound.healthy rfl key stale).elim absent out
  | enqueue | timeout | flushNow | flush | failed => trivial

def retried : List Action :=
  [.enqueue ["latest"], .timeout 0, .flush, .failed, .enqueue ["latest"], .flushNow, .flush,
    .succeeded]

def overtaken : List Action :=
  [.enqueue ["contract:A"], .timeout 0, .flush, .failed, .enqueue ["latest"], .flushNow, .flush,
    .succeeded]

theorem retried_sound : ∃ final, Run (Step "fastly") .start retried final ∧
    Along (Step "fastly") .start retried fun _ queue => queue.Sound := by
  have nothing : Run (Step "fastly") .start [] .start ∧
      EachStep (Step "fastly") .start [] Spared := ⟨Run.nil, EachStep.nil⟩
  have enqueued := EachStep.extend (deterministic _) nothing
    (show Spared _ (.enqueue ["latest"]) from trivial) (.enqueue ["latest"] (by decide))
  have fired := EachStep.extend (deterministic _) enqueued
    (show Spared _ (.timeout 0) from trivial) (.timeout 0 List.mem_cons_self)
  have flushing := EachStep.extend (deterministic _) fired
    (show Spared _ .flush from trivial) (.flush rfl rfl)
  have failed := EachStep.extend (deterministic _) flushing
    (show Spared _ .failed from trivial) (.failed rfl)
  have again := EachStep.extend (deterministic _) failed
    (show Spared _ (.enqueue ["latest"]) from trivial) (.enqueue ["latest"] (by decide))
  have now := EachStep.extend (deterministic _) again
    (show Spared _ .flushNow from trivial) .flushNow
  have sending := EachStep.extend (deterministic _) now
    (show Spared _ .flush from trivial) (.flush rfl rfl)
  have purged := EachStep.extend (deterministic _) sending
    (show Spared _ .succeeded from fun key forgotten => by
      by_cases same : key = "latest"
      · subst same
        exact forgotten.2.2 ⟨_, rfl, .inl List.mem_cons_self⟩
      · have stale := forgotten.1
        simp [Stale, start, Queue.enqueue, collect, Queue.flush, Queue.failed, send, Queue.arm, same]
          at stale)
    (.succeeded rfl)
  exact ⟨_, purged.1, (sound_iff_eachStep _ purged.1).mpr purged.2⟩

theorem overtaken_unsound : ∃ final, Run (Step "fastly") .start overtaken final ∧
    ¬ final.Sound := by
  have enqueued : Run (Step "fastly") .start [.enqueue ["contract:A"]] _ :=
    Run.one (.enqueue ["contract:A"] (by decide))
  have fired := enqueued.snoc (.timeout 0 List.mem_cons_self)
  have flushing := fired.snoc (.flush rfl rfl)
  have failed := flushing.snoc (.failed rfl)
  have again := failed.snoc (.enqueue ["latest"] (by decide))
  have now := again.snoc .flushNow
  have sending := now.snoc (.flush rfl rfl)
  have purged := sending.snoc (.succeeded rfl)
  refine ⟨_, purged, fun sound => ?_⟩
  obtain pending | ⟨flush, running, -⟩ := sound.healthy rfl "contract:A" (by decide)
  · exact absurd pending (by decide)
  · nomatch running

end Queue

end SorobanExplorer.Indexer.CdnPurge

import SorobanExplorer.Filters.JsValue
import SorobanExplorer.Library.JsArithmetic
import SorobanExplorer.Library.JsBigInt
import SorobanExplorer.Library.SlidingWindow
import Mathlib.Logic.Relation

/-!
Owns the anomaly score of a principal: what `observe` keeps of its requests, the score of that, and
what `abuseScorer` does with the action, against the windows that the score is said to be built
from.
-/

namespace SorobanExplorer.Indexer.AbuseScorer

open Library Filters

/-! ### Constants -/

def WINDOW_MS : ℕ := 60000
def BASELINE_MINUTES : ℕ := 60

namespace THRESHOLDS

def flag : ℕ := 3
def throttle : ℕ := 5
def challenge : ℕ := 7
def suspend : ℕ := 9

end THRESHOLDS

def THROTTLED_RPM : JsNumeric := .ofNat 10

/-- `/\/(api-keys|signup|register)(\/|$)/.test(path)` -/
def SIGNUP_PATH (path : JsString) : Bool :=
  path.tails.any fun rest =>
    [js "/api-keys", js "/signup", js "/register"].any fun word =>
      word.isPrefixOf rest &&
        (rest.drop word.length = [] || (rest.drop word.length).head? = (js "/").head?)

/-- What ECMAScript leaves to the implementation, and texts that are not needed here. -/
structure Host where
  sqrt : JsNumeric → JsNumeric
  log2 : JsNumeric → JsNumeric
  /-- `base ** exponent` -/
  pow : JsNumeric → JsNumeric → JsNumeric
  /-- `Number(value.toFixed(2))` -/
  toFixed2 : JsNumeric → JsNumeric
  toLowerCase : JsString → JsString

/-! ### State of a principal -/

inductive Action where
  | none
  | flag
  | throttle
  | challenge
  | suspend
deriving DecidableEq

structure Req where
  t : ℕ
  path : JsString
  status : ℕ

structure Evidence where
  volumeZ : Option JsNumeric
  endpointEntropy : Option JsNumeric
  sequentialCursorPages : Option ℕ
  distinctIps : Option ℕ
  signupAttempts : Option ℕ
  signupDomain : Option (JsString × ℕ)
  errorRate : Option JsNumeric

/-- A cursor of a query: a text, or an array or object, which no other one equals. -/
inductive Cursor where
  | text (units : JsString)
  | composite

structure State where
  /-- Oldest first. -/
  reqs : List Req
  /-- Oldest first. -/
  minuteCounts : List ℕ
  lastMinute : ℕ
  ips : OrderedMap JsString ℕ
  /-- Oldest first. -/
  signups : List ℕ
  domains : OrderedMap JsString ℕ
  cursorRun : ℕ
  lastCursor : Option Cursor
  score : ℕ
  action : Action
  evidence : Evidence
  updatedAt : ℕ

def noEvidence : Evidence := ⟨none, none, none, none, none, none, none⟩

/-- What `stateFor` makes for a principal that is not known. -/
def State.initial : State where
  reqs := []
  minuteCounts := []
  lastMinute := 0
  ips := .empty
  signups := []
  domains := .empty
  cursorRun := 0
  lastCursor := none
  score := 0
  action := .none
  evidence := noEvidence
  updatedAt := 0

def State.prune (s : State) (now : ℕ) : State :=
  { s with
    reqs := SlidingWindow.prune Req.t WINDOW_MS now s.reqs
    signups := SlidingWindow.prune id (WINDOW_MS * 5) now s.signups
    ips := s.ips.discard fun ip => WINDOW_MS * 5 < now - (s.ips.get ip).getD now }

def minuteOf (now : ℕ) : ℕ := now / WINDOW_MS

def State.rollMinute (s : State) (now : ℕ) : State :=
  let minute := minuteOf now
  if s.lastMinute ≠ 0 ∧ minute ≠ s.lastMinute then
    let pushed := s.minuteCounts ++ [s.reqs.length]
    { s with
      minuteCounts := if BASELINE_MINUTES < pushed.length then pushed.tail else pushed
      lastMinute := minute }
  else { s with lastMinute := minute }

/-! ### Score -/

section Score

variable (host : Host)

def sum (values : List JsNumeric) : JsNumeric := values.foldl .add (.ofNat 0)

/-- `value || 1` -/
def orOne (value : JsNumeric) : JsNumeric :=
  if value = none ∨ value = .ofNat 0 then .ofNat 1 else value

def zScore (value : ℕ) (samples : List ℕ) : JsNumeric :=
  if samples.length < 5 then .ofNat 0
  else
    let count := JsNumeric.ofNat samples.length
    let mean := JsNumeric.div (sum (samples.map .ofNat)) count
    let squares := samples.map fun b => host.pow (.sub (.ofNat b) mean) (.ofNat 2)
    let sd := orOne (host.sqrt (.div (sum squares) count))
    .div (.sub (.ofNat value) mean) sd

def entropy (paths : List JsString) : JsNumeric :=
  let counts := paths.foldl (fun counts path => counts.increment path) OrderedMap.empty
  counts.entries.foldl
    (fun h entry =>
      let p := JsNumeric.div (.ofNat entry.2) (.ofNat paths.length)
      .sub h (.mul p (host.log2 p)))
    (.ofNat 0)

def half : JsNumeric := .div (.ofNat 1) (.ofNat 2)

def actionAt (score : ℕ) : Action :=
  if THRESHOLDS.suspend ≤ score then .suspend
  else if THRESHOLDS.challenge ≤ score then .challenge
  else if THRESHOLDS.throttle ≤ score then .throttle
  else if THRESHOLDS.flag ≤ score then .flag
  else .none

def actionOf (score : ℕ) (ipOnly : Bool) : Action :=
  if ipOnly = true ∧ actionAt score ≠ .none then .flag else actionAt score

def points {α : Type} (holds : Bool) (count : ℕ) (evidence : α) : ℕ × Option α :=
  if holds then (count, some evidence) else (0, none)

structure Scored where
  score : ℕ
  action : Action
  evidence : Evidence

def scoreState (s : State) (ipOnly : Bool) : Scored :=
  let n := s.reqs.length
  let z := zScore host n s.minuteCounts
  let volume := points (z.gt (.ofNat 3)) 3 (host.toFixed2 z)
  let h := entropy host (s.reqs.map Req.path)
  let scraping := points (30 ≤ n && JsNumeric.gt (.ofNat 1) h) 2 (host.toFixed2 h)
  let cursors := points (25 ≤ s.cursorRun) 3 s.cursorRun
  let sharing := points (10 ≤ s.ips.size) 3 s.ips.size
  let signups := points (5 ≤ s.signups.length) 4 s.signups.length
  let domains := s.domains.entries.filter fun entry => 5 ≤ entry.2
  let errors := (s.reqs.filter fun r => 400 ≤ r.status).length
  let rate := JsNumeric.div (.ofNat errors) (.ofNat n)
  let failing := points (20 ≤ n && rate.gt half) 2 (host.toFixed2 rate)
  let score := volume.1 + scraping.1 + cursors.1 + sharing.1 + signups.1 + 2 * domains.length +
    failing.1
  { score
    action := actionOf score ipOnly
    evidence :=
      { volumeZ := volume.2
        endpointEntropy := scraping.2
        sequentialCursorPages := cursors.2
        distinctIps := sharing.2
        signupAttempts := signups.2
        signupDomain := domains.getLast?
        errorRate := failing.2 } }

/-! ### Observations -/

structure Observation where
  ip : JsString
  ipOnly : Bool
  method : JsString
  path : JsString
  status : ℕ
  /-- A cursor that is not empty. -/
  cursor : Option Cursor
  email : Option JsString
  now : ℕ

def Observation.req (observation : Observation) : Req where
  t := observation.now
  path := observation.path
  status := observation.status

/-- `cursor !== s.lastCursor` -/
def Cursor.differs : Cursor → Option Cursor → Bool
  | .text units, some (.text last) => units ≠ last
  | _, _ => true

def Observation.isSignup (observation : Observation) : Bool :=
  observation.method = js "POST" && SIGNUP_PATH observation.path

def Observation.domain (observation : Observation) : Option JsString := do
  let email ← observation.email
  let named ← (email.splitOn 64)[1]?
  let domain := host.toLowerCase named
  if domain = [] then none else some domain

def State.follow (s : State) (cursor : Option Cursor) : State :=
  match cursor with
  | some cursor =>
    { s with
      cursorRun := if cursor.differs s.lastCursor then s.cursorRun + 1 else s.cursorRun
      lastCursor := some cursor }
  | none => { s with cursorRun := 0 }

def State.countSignup (s : State) (observation : Observation) : State :=
  if observation.isSignup then
    { s with
      signups := s.signups ++ [observation.now]
      domains := match observation.domain host with
        | some domain => s.domains.increment domain
        | none => s.domains }
  else s

def State.observe (s : State) (observation : Observation) : State :=
  let pruned := (s.rollMinute observation.now).prune observation.now
  let recorded := { pruned with
    reqs := pruned.reqs ++ [observation.req]
    ips := pruned.ips.set observation.ip observation.now }
  let counted := (recorded.follow observation.cursor).countSignup host observation
  let scored := scoreState host counted observation.ipOnly
  { counted with
    score := scored.score
    action := scored.action
    evidence := scored.evidence
    updatedAt := observation.now }

end Score

/-! ### Windows -/

abbrev History := List Observation

abbrev Ordered (history : History) : Prop := SlidingWindow.Ordered Observation.now history

section Windows

variable (host : Host)

def observed : History → State
  | [] => .initial
  | newest :: earlier => (observed earlier).observe host newest

def lastMinute (history : History) : History :=
  SlidingWindow.window Observation.now WINDOW_MS history

def lastFiveMinutes (history : History) : History :=
  SlidingWindow.window Observation.now (WINDOW_MS * 5) history

/-- How many requests there were in the last minute whenever an active minute ended. The first
minute of all does not count. -/
def samples : History → List ℕ
  | newest :: previous :: earlier =>
    if minuteOf previous.now ≠ 0 ∧ minuteOf newest.now ≠ minuteOf previous.now then
      (lastMinute (previous :: earlier)).length :: samples (previous :: earlier)
    else samples (previous :: earlier)
  | _ => []

def baseline (history : History) : List ℕ := ((samples history).take BASELINE_MINUTES).reverse

def lastCursor (history : History) : Option Cursor := history.findSome? Observation.cursor

def cursorRun : History → ℕ
  | [] => 0
  | newest :: earlier =>
    match newest.cursor with
    | some cursor =>
      if cursor.differs (lastCursor earlier) then cursorRun earlier + 1 else cursorRun earlier
    | none => 0

def signups (history : History) : List ℕ :=
  ((history.filter Observation.isSignup).map Observation.now).reverse

def signupDomains (history : History) : List JsString :=
  (history.filter Observation.isSignup).filterMap (Observation.domain host)

def windowState (history : History) : State :=
  { State.initial with
    reqs := ((lastMinute history).map Observation.req).reverse
    minuteCounts := baseline history
    ips := .ofEntries ((lastFiveMinutes history).map fun seen => (seen.ip, seen.now)).reverse
    signups := signups (lastFiveMinutes history)
    domains := .tally (signupDomains host (lastFiveMinutes history))
    cursorRun := cursorRun history }

def Slides (newest : Observation) (earlier : History) : Prop :=
  let now := scoreState host (windowState host (newest :: earlier)) newest.ipOnly
  (observed host (newest :: earlier)).score = now.score ∧
    (observed host (newest :: earlier)).action = now.action

end Windows

/-! ### What an observation changes -/

section Changes

variable {host : Host} (s : State) (observation : Observation) (cursor : Option Cursor)

@[simp] theorem follow_reqs : (s.follow cursor).reqs = s.reqs := by cases cursor <;> rfl

@[simp] theorem follow_ips : (s.follow cursor).ips = s.ips := by cases cursor <;> rfl

@[simp] theorem follow_signups : (s.follow cursor).signups = s.signups := by cases cursor <;> rfl

@[simp] theorem follow_domains : (s.follow cursor).domains = s.domains := by cases cursor <;> rfl

@[simp] theorem follow_minuteCounts : (s.follow cursor).minuteCounts = s.minuteCounts := by
  cases cursor <;> rfl

@[simp] theorem follow_lastMinute : (s.follow cursor).lastMinute = s.lastMinute := by
  cases cursor <;> rfl

theorem follow_lastCursor : (s.follow cursor).lastCursor = cursor.or s.lastCursor := by
  cases cursor <;> rfl

theorem follow_cursorRun : (s.follow cursor).cursorRun =
    match cursor with
    | some cursor => if cursor.differs s.lastCursor then s.cursorRun + 1 else s.cursorRun
    | none => 0 := by
  cases cursor <;> rfl

theorem countSignup_eq : s.countSignup host observation =
    { s with
      signups := if observation.isSignup then s.signups ++ [observation.now] else s.signups
      domains := if observation.isSignup then
          match observation.domain host with
          | some domain => s.domains.increment domain
          | none => s.domains
        else s.domains } := by
  rw [State.countSignup]
  split <;> rfl

theorem rollMinute_eq : s.rollMinute observation.now =
    { s with
      minuteCounts := (s.rollMinute observation.now).minuteCounts
      lastMinute := minuteOf observation.now } := by
  rw [State.rollMinute]
  split <;> rfl

theorem observe_reqs : (s.observe host observation).reqs =
    SlidingWindow.prune Req.t WINDOW_MS observation.now s.reqs ++ [observation.req] := by
  simp only [State.observe, countSignup_eq, follow_reqs, State.prune]
  rw [rollMinute_eq]

theorem observe_ips : (s.observe host observation).ips =
    (s.ips.discard fun ip => WINDOW_MS * 5 < observation.now -
      (s.ips.get ip).getD observation.now).set observation.ip observation.now := by
  simp only [State.observe, countSignup_eq, follow_ips, State.prune]
  rw [rollMinute_eq]

theorem observe_signups : (s.observe host observation).signups =
    if observation.isSignup then
      SlidingWindow.prune id (WINDOW_MS * 5) observation.now s.signups ++ [observation.now]
    else SlidingWindow.prune id (WINDOW_MS * 5) observation.now s.signups := by
  simp only [State.observe, countSignup_eq, follow_signups, State.prune]
  rw [rollMinute_eq]

theorem observe_domains : (s.observe host observation).domains =
    if observation.isSignup then
      match observation.domain host with
      | some domain => s.domains.increment domain
      | none => s.domains
    else s.domains := by
  simp only [State.observe, countSignup_eq, follow_domains, State.prune]
  rw [rollMinute_eq]

theorem observe_minuteCounts : (s.observe host observation).minuteCounts =
    (s.rollMinute observation.now).minuteCounts := by
  simp only [State.observe, countSignup_eq, follow_minuteCounts, State.prune]

theorem observe_lastMinute : (s.observe host observation).lastMinute =
    minuteOf observation.now := by
  simp only [State.observe, countSignup_eq, follow_lastMinute, State.prune]
  rw [rollMinute_eq]

theorem observe_lastCursor : (s.observe host observation).lastCursor =
    observation.cursor.or s.lastCursor := by
  simp only [State.observe, countSignup_eq, follow_lastCursor, State.prune]
  rw [rollMinute_eq]

theorem observe_cursorRun : (s.observe host observation).cursorRun =
    match observation.cursor with
    | some cursor => if cursor.differs s.lastCursor then s.cursorRun + 1 else s.cursorRun
    | none => 0 := by
  simp only [State.observe, countSignup_eq, follow_cursorRun, State.prune]
  rw [rollMinute_eq]

end Changes

/-! ### What a history leaves -/

section Histories

variable {host : Host} {history : History}

theorem observed_reqs (ordered : Ordered history) :
    (observed host history).reqs = ((lastMinute history).map Observation.req).reverse := by
  induction history with
  | nil => rfl
  | cons newest earlier ih =>
    have parts := List.pairwise_cons.mp ordered
    have same (observation : Observation) : observation.req.t = observation.now := rfl
    rw [observed, observe_reqs, ih parts.2, lastMinute,
      SlidingWindow.prune_map_reverse same (SlidingWindow.ordered_window parts.2),
      SlidingWindow.filter_window parts.1, lastMinute, SlidingWindow.window_cons, List.map_cons,
      List.reverse_cons]

theorem observed_signups (ordered : Ordered history) :
    (observed host history).signups = signups (lastFiveMinutes history) := by
  induction history with
  | nil => rfl
  | cons newest earlier ih =>
    have parts := List.pairwise_cons.mp ordered
    have order : Ordered ((lastFiveMinutes earlier).filter Observation.isSignup) :=
      (SlidingWindow.ordered_window parts.2).sublist List.filter_sublist
    have same (observation : Observation) : id (Observation.now observation) = observation.now :=
      rfl
    have kept : SlidingWindow.prune id (WINDOW_MS * 5) newest.now
        (signups (lastFiveMinutes earlier)) =
          signups (earlier.filter
            (SlidingWindow.recent Observation.now (WINDOW_MS * 5) newest.now)) := by
      rw [signups, SlidingWindow.prune_map_reverse same order, List.filter_comm,
        lastFiveMinutes, SlidingWindow.filter_window parts.1, signups]
    rw [observed, observe_signups, ih parts.2, kept, lastFiveMinutes,
      SlidingWindow.window_cons, signups, signups]
    cases signup : newest.isSignup with
    | true => rw [if_pos rfl, List.filter_cons_of_pos signup, List.map_cons, List.reverse_cons]
    | false => rw [if_neg Bool.false_ne_true, List.filter_cons_of_neg (by simp [signup])]

theorem observed_domains (history : History) :
    (observed host history).domains = .tally (signupDomains host history) := by
  induction history with
  | nil => rfl
  | cons newest earlier ih =>
    rw [observed, observe_domains, ih, signupDomains, signupDomains]
    cases signup : newest.isSignup with
    | false => rw [if_neg Bool.false_ne_true, List.filter_cons_of_neg (by simp [signup])]
    | true =>
      rw [if_pos rfl, List.filter_cons_of_pos signup, List.filterMap_cons]
      cases newest.domain host <;> rfl

theorem observed_lastCursor (history : History) :
    (observed host history).lastCursor = lastCursor history := by
  induction history with
  | nil => rfl
  | cons newest earlier ih =>
    rw [observed, observe_lastCursor, ih, lastCursor, lastCursor,
      List.findSome?_cons]
    cases newest.cursor <;> rfl

theorem observed_cursorRun (history : History) :
    (observed host history).cursorRun = cursorRun history := by
  induction history with
  | nil => rfl
  | cons newest earlier ih =>
    rw [observed, observe_cursorRun, ih, observed_lastCursor, cursorRun]

theorem rollMinute_minuteCounts (s : State) (now : ℕ) : (s.rollMinute now).minuteCounts =
    if s.lastMinute ≠ 0 ∧ minuteOf now ≠ s.lastMinute then
      if BASELINE_MINUTES < (s.minuteCounts ++ [s.reqs.length]).length then
        (s.minuteCounts ++ [s.reqs.length]).tail
      else s.minuteCounts ++ [s.reqs.length]
    else s.minuteCounts := by
  rw [State.rollMinute]
  split <;> rfl

theorem observed_minuteCounts (ordered : Ordered history) :
    (observed host history).minuteCounts = baseline history := by
  induction history with
  | nil => rfl
  | cons newest earlier ih =>
    have order := (List.pairwise_cons.mp ordered).2
    rw [observed, observe_minuteCounts, rollMinute_minuteCounts, ih order]
    cases earlier with
    | nil => rfl
    | cons previous earlier =>
      have counted : (observed host (previous :: earlier)).reqs.length =
          (lastMinute (previous :: earlier)).length := by
        rw [observed_reqs order, List.length_reverse, List.length_map]
      rw [observed, observe_lastMinute, ← observed, counted]
      split
      · next active =>
          rw [baseline, baseline, SlidingWindow.push_bounded, samples, if_pos active]
      · next idle => rw [baseline, baseline, samples, if_neg idle]

theorem observed_ips (ordered : Ordered history) (ip : JsString) :
    (observed host history).ips.get ip =
      ((lastFiveMinutes history).find? fun seen => seen.ip = ip).map Observation.now := by
  induction history with
  | nil => rfl
  | cons newest earlier ih =>
    have parts := List.pairwise_cons.mp ordered
    rw [observed, observe_ips, OrderedMap.get_set, OrderedMap.get_discard,
      ih parts.2, lastFiveMinutes, lastFiveMinutes, SlidingWindow.window_cons,
      List.find?_cons, ← SlidingWindow.filter_window parts.1,
      SlidingWindow.find?_filter_recent (SlidingWindow.ordered_window parts.2)]
    by_cases same : newest.ip = ip
    · rw [if_pos same.symm, decide_eq_true same]
      rfl
    · rw [if_neg (Ne.symm same), decide_eq_false same]
      cases found : (SlidingWindow.window Observation.now (WINDOW_MS * 5) earlier).find?
          fun seen => seen.ip = ip with
      | none => simp
      | some last =>
        rw [Option.map_some, Option.getD_some, Option.filter_some, SlidingWindow.recent]
        by_cases stale : WINDOW_MS * 5 < newest.now - last.now
        · rw [if_pos (decide_eq_true stale), decide_eq_false (not_le.mpr stale)]
          rfl
        · rw [if_neg (by simpa using stale), decide_eq_true (not_lt.mp stale)]
          rfl

theorem size_ips (ordered : Ordered history) :
    (observed host history).ips.size = (windowState host history).ips.size := by
  apply OrderedMap.size_congr
  intro ip
  rw [observed_ips ordered, windowState, OrderedMap.get_ofEntries, List.reverse_reverse,
    List.find?_map, Option.map_map]
  rfl

/-! ### The score -/

theorem score_eq_iff {left right : State} {ipOnly : Bool} (reqs : left.reqs = right.reqs)
    (minuteCounts : left.minuteCounts = right.minuteCounts)
    (ips : left.ips.size = right.ips.size) (signups : left.signups = right.signups)
    (cursorRun : left.cursorRun = right.cursorRun) :
    (scoreState host left ipOnly).score = (scoreState host right ipOnly).score ↔
      left.domains.reaching 5 = right.domains.reaching 5 := by
  rw [OrderedMap.reaching, OrderedMap.reaching, List.countP_eq_length_filter,
    List.countP_eq_length_filter]
  simp only [scoreState, reqs, minuteCounts, ips, signups, cursorRun]
  omega

theorem score_ge (s : State) (ipOnly : Bool) :
    2 * s.domains.reaching 5 ≤ (scoreState host s ipOnly).score := by
  rw [OrderedMap.reaching, List.countP_eq_length_filter]
  simp only [scoreState]
  omega

theorem action_eq (s : State) (ipOnly : Bool) :
    (scoreState host s ipOnly).action = actionOf (scoreState host s ipOnly).score ipOnly := rfl

theorem observe_score (s : State) (observation : Observation) :
    (s.observe host observation).score =
      (scoreState host (s.observe host observation) observation.ipOnly).score := rfl

theorem observe_action (s : State) (observation : Observation) :
    (s.observe host observation).action =
      actionOf (s.observe host observation).score observation.ipOnly := rfl

theorem slides_iff {newest : Observation} {earlier : History}
    (ordered : Ordered (newest :: earlier)) :
    Slides host newest earlier ↔ ∀ domain,
      5 ≤ (signupDomains host (newest :: earlier)).countP (· = domain) →
        5 ≤ (signupDomains host (lastFiveMinutes (newest :: earlier))).countP (· = domain) := by
  have part : (signupDomains host (lastFiveMinutes (newest :: earlier))).Sublist
      (signupDomains host (newest :: earlier)) :=
    ((SlidingWindow.window_sublist _).filter _).filterMap _
  have scores : (observed host (newest :: earlier)).score =
      (scoreState host (windowState host (newest :: earlier)) newest.ipOnly).score ↔
        (observed host (newest :: earlier)).domains.reaching 5 =
          (windowState host (newest :: earlier)).domains.reaching 5 := by
    rw [observed, observe_score, ← observed]
    exact score_eq_iff (observed_reqs ordered) (observed_minuteCounts ordered) (size_ips ordered)
      (observed_signups ordered) (observed_cursorRun _)
  have domains : (windowState host (newest :: earlier)).domains =
      .tally (signupDomains host (lastFiveMinutes (newest :: earlier))) := rfl
  rw [observed_domains, domains, OrderedMap.reaching_eq_iff (by decide) part] at scores
  rw [← scores, Slides]
  constructor
  · exact fun both => both.1
  · intro same
    refine ⟨same, ?_⟩
    rw [action_eq, ← same]
    rfl

end Histories

/-! ### The middleware -/

/-- `none` is `undefined`. -/
structure RateContext where
  keyId : Option JsString
  rateLimit : Option JsNumeric

structure Request where
  rateContext : Option RateContext
  ip : Option JsString
  remoteAddress : Option JsString
  method : JsString
  path : JsString
  /-- A cursor that is not empty. -/
  cursor : Option Cursor
  email : Option JsString

structure Env where
  ABUSE_ALLOWLIST : JsString
  ABUSE_ENFORCE : JsString

def allowlist (env : Env) : List JsString :=
  ((env.ABUSE_ALLOWLIST.splitOn 44).map JsBigInt.trim).filter (· ≠ [])

def isShadowMode (env : Env) : Bool := env.ABUSE_ENFORCE ≠ js "true"

structure Principal where
  id : JsString
  ip : JsString
  ipOnly : Bool

def principalOf (req : Request) : Principal :=
  let ip := (req.ip.or req.remoteAddress).getD (js "unknown")
  match (req.rateContext.bind RateContext.keyId).filter (· ≠ []) with
  | some keyId => ⟨js "key:" ++ keyId, ip, false⟩
  | none => ⟨js "ip:" ++ ip, ip, true⟩

structure Pending where
  principal : Principal
  request : Request
  overridden : Bool

structure Service where
  principals : OrderedMap JsString State
  overrides : OrderedMap JsString ℕ
  pending : List Pending
  clock : ℕ

inductive Decision where
  | next (rateContext : Option RateContext)
  | suspended
  | challenged

def throttled (rateContext : Option RateContext) : RateContext where
  keyId := rateContext.bind RateContext.keyId
  rateLimit := some (.minimum ((rateContext.bind RateContext.rateLimit).getD THROTTLED_RPM)
    THROTTLED_RPM)

def enforce (s : State) (req : Request) : Decision :=
  if s.action = .suspend then .suspended
  else if s.action = .challenge ∧ req.method = js "POST" ∧ SIGNUP_PATH req.path = true then
    .challenged
  else if s.action = .throttle ∨ s.action = .challenge then .next (some (throttled req.rateContext))
  else .next req.rateContext

def abuseScorer (env : Env) (service : Service) (req : Request) (now : ℕ) : Decision × Service :=
  let p := principalOf req
  let allowed := allowlist env
  if p.id.drop (p.id.idxOf 58 + 1) ∈ allowed ∨ p.ip ∈ allowed then (.next req.rateContext, service)
  else
    let overridden := (service.overrides.get p.id).any (now < ·)
    let waiting := { service with pending := service.pending ++ [⟨p, req, overridden⟩] }
    match service.principals.get p.id with
    | none => (.next req.rateContext, waiting)
    | some s =>
      if overridden || isShadowMode env then (.next req.rateContext, waiting)
      else (enforce s req, waiting)

/-- `observe` -/
def Service.observe (host : Host) (service : Service) (id : JsString) (observation : Observation) :
    Service :=
  let s := (service.principals.get id).getD .initial
  { service with principals := service.principals.set id (s.observe host observation) }

def Pending.observation (pending : Pending) (status now : ℕ) : Observation where
  ip := pending.principal.ip
  ipOnly := pending.principal.ipOnly
  method := pending.request.method
  path := pending.request.path
  status := status
  cursor := pending.request.cursor
  email := pending.request.email
  now := now

def Service.finish (host : Host) (service : Service) (pending : Pending) (status now : ℕ) :
    Service :=
  if pending.overridden then service
  else service.observe host pending.principal.id (pending.observation status now)

def Service.overridePrincipal (service : Service) (id : JsString) (expiry : ℕ) : Service :=
  { service with
    principals := service.principals.erase id
    overrides := service.overrides.set id expiry }

def Service.initial : Service := ⟨.empty, .empty, [], 0⟩

inductive Step (host : Host) (service : Service) : Service → Prop
  | request (env : Env) (req : Request) {now : ℕ} (later : service.clock ≤ now) :
      Step host service { (abuseScorer env service req now).2 with clock := now }
  | finish {place : ℕ} {pending : Pending} (waiting : service.pending[place]? = some pending)
      (status : ℕ) {now : ℕ} (later : service.clock ≤ now) :
      Step host service { service.finish host pending status now with
        pending := service.pending.eraseIdx place
        clock := now }
  | override (id : JsString) (expiry : ℕ) : Step host service (service.overridePrincipal id expiry)

abbrev Reachable (host : Host) (service : Service) : Prop :=
  Relation.ReflTransGen (Step host) .initial service

/-! ### Reachable states -/

section Reachability

variable {host : Host}

theorem ipOnly_of_id {left right : Request} (same : (principalOf left).id = (principalOf right).id) :
    (principalOf left).ipOnly = (principalOf right).ipOnly := by
  have first (req : Request) : (principalOf req).id.head? =
      if (principalOf req).ipOnly then (js "ip:").head? else (js "key:").head? := by
    rw [principalOf]
    cases (req.rateContext.bind RateContext.keyId).filter (· ≠ []) <;> rfl
  have heads := congrArg List.head? same
  rw [first, first] at heads
  cases leftKind : (principalOf left).ipOnly <;> cases rightKind : (principalOf right).ipOnly
  · rfl
  · rw [leftKind, rightKind] at heads
    exact absurd heads (by decide)
  · rw [leftKind, rightKind] at heads
    exact absurd heads (by decide)
  · rfl

theorem actionOf_ipOnly (score : ℕ) : actionOf score true = .none ∨ actionOf score true = .flag := by
  rw [actionOf]
  split
  · exact .inr rfl
  · next kept =>
      rw [not_and, not_not] at kept
      exact .inl (kept rfl)

def Kept (host : Host) (clock : ℕ) (id : JsString) (s : State) : Prop :=
  ∃ newest earlier, Ordered (newest :: earlier) ∧ newest.now ≤ clock ∧
    s = observed host (newest :: earlier) ∧
      ∃ req, id = (principalOf req).id ∧ newest.ipOnly = (principalOf req).ipOnly

structure Sound (host : Host) (service : Service) : Prop where
  kept : ∀ id s, service.principals.get id = some s → Kept host service.clock id s
  pending : ∀ waiting ∈ service.pending, ∃ req, waiting.principal = principalOf req

theorem Kept.later {clock later : ℕ} {id : JsString} {s : State} (kept : Kept host clock id s)
    (le : clock ≤ later) : Kept host later id s := by
  obtain ⟨newest, earlier, ordered, before, same, named⟩ := kept
  exact ⟨newest, earlier, ordered, before.trans le, same, named⟩

theorem Sound.observe {service : Service} (sound : Sound host service) {req : Request}
    {observation : Observation} (kind : observation.ipOnly = (principalOf req).ipOnly)
    (later : service.clock ≤ observation.now) :
    ∀ id s, (service.observe host (principalOf req).id observation).principals.get id = some s →
      Kept host observation.now id s := by
  intro id s found
  rw [Service.observe, OrderedMap.get_set] at found
  split at found
  · next same =>
      rw [Option.some_inj] at found
      cases known : service.principals.get (principalOf req).id with
      | none =>
        rw [known] at found
        exact ⟨observation, [], List.pairwise_singleton _ _, le_refl _, found.symm, req, same, kind⟩
      | some old =>
        obtain ⟨newest, earlier, ordered, before, was, -⟩ := sound.kept _ old known
        rw [known, Option.getD_some, was] at found
        refine ⟨observation, newest :: earlier, ?_, le_refl _, found.symm, req, same, kind⟩
        refine List.pairwise_cons.mpr ⟨?_, ordered⟩
        intro seen listed
        refine le_trans ?_ (before.trans later)
        cases listed with
        | head => exact le_refl _
        | tail _ listed => exact (List.pairwise_cons.mp ordered).1 seen listed
  · exact (sound.kept id s found).later later

theorem abuseScorer_principals (env : Env) (service : Service) (req : Request) (now : ℕ) :
    (abuseScorer env service req now).2.principals = service.principals := by
  unfold abuseScorer
  dsimp only
  split
  · rfl
  · split
    · rfl
    · split <;> rfl

theorem abuseScorer_pending (env : Env) (service : Service) (req : Request) (now : ℕ)
    {waiting : Pending} (listed : waiting ∈ (abuseScorer env service req now).2.pending) :
    waiting ∈ service.pending ∨ waiting.principal = principalOf req := by
  have added (overridden : Bool)
      (among : waiting ∈ service.pending ++ [⟨principalOf req, req, overridden⟩]) :
      waiting ∈ service.pending ∨ waiting.principal = principalOf req := by
    cases List.mem_append.mp among with
    | inl old => exact .inl old
    | inr new => exact .inr (congrArg Pending.principal (List.mem_singleton.mp new))
  unfold abuseScorer at listed
  dsimp only at listed
  split at listed
  · exact .inl listed
  · split at listed
    · exact added _ listed
    · split at listed <;> exact added _ listed

theorem Sound.step {before after : Service} (sound : Sound host before)
    (taken : Step host before after) : Sound host after := by
  cases taken with
  | request env req later =>
    constructor
    · intro id s found
      have same : before.principals.get id = some s := by
        rw [← found]
        exact congrArg (·.get id) (abuseScorer_principals env before req _).symm
      exact (sound.kept id s same).later later
    · intro waiting listed
      cases abuseScorer_pending env before req _ listed with
      | inl old => exact sound.pending waiting old
      | inr new => exact ⟨req, new⟩
  | @finish place pending waiting status now later =>
    obtain ⟨req, named⟩ := sound.pending pending (List.mem_of_getElem? waiting)
    constructor
    · intro id s found
      by_cases skipped : pending.overridden = true
      · have same : before.principals.get id = some s := by
          rw [← found, Service.finish, if_pos skipped]
        exact (sound.kept id s same).later later
      · have same : (before.observe host (principalOf req).id
            (pending.observation status now)).principals.get id = some s := by
          rw [← found, Service.finish, if_neg skipped, named]
        exact sound.observe (congrArg Principal.ipOnly named) later id s same
    · intro other listed
      exact sound.pending other (List.mem_of_mem_eraseIdx listed)
  | override id expiry =>
    constructor
    · intro other s found
      rw [Service.overridePrincipal, OrderedMap.get_erase] at found
      split at found
      · cases found
      · exact sound.kept other s found
    · exact sound.pending

theorem sound_of_reachable {service : Service} (reachable : Reachable host service) :
    Sound host service := by
  induction reachable with
  | refl =>
    constructor
    · intro id s found
      cases found
    · intro waiting listed
      cases listed
  | tail _ taken ih => exact ih.step taken

theorem enforce_of_mild {s : State} (mild : s.action = .none ∨ s.action = .flag) (req : Request) :
    enforce s req = .next req.rateContext := by
  rw [enforce]
  cases mild with
  | inl quiet => simp [quiet]
  | inr flagged => simp [flagged]

theorem abuseScorer_of_mild {env : Env} {service : Service} {req : Request} {now : ℕ}
    (mild : ∀ s, service.principals.get (principalOf req).id = some s →
      s.action = .none ∨ s.action = .flag) :
    (abuseScorer env service req now).1 = .next req.rateContext := by
  unfold abuseScorer
  dsimp only
  split
  · rfl
  · split
    · rfl
    · next s found =>
        split
        · rfl
        · exact enforce_of_mild (mild s found) req

theorem abuseScorer_ipOnly {service : Service} (sound : Sound host service) (env : Env)
    {req : Request} (now : ℕ) (ipOnly : (principalOf req).ipOnly = true) :
    (abuseScorer env service req now).1 = .next req.rateContext := by
  apply abuseScorer_of_mild
  intro s found
  obtain ⟨newest, earlier, -, -, same, other, named, kind⟩ := sound.kept _ s found
  have only : newest.ipOnly = true := by rw [kind, ← ipOnly_of_id named, ipOnly]
  rw [same, observed, observe_action, only]
  exact actionOf_ipOnly _

end Reachability

/-- After every observation the score and the action are those of the windows exactly if every
domain that ever had five sign-up attempts had five in the last five minutes; in every run the state
of a principal is that of its observations, and a principal without a key is let through. -/
theorem abuseScorer_slides_iff (host : Host) :
    (∀ newest earlier, Ordered (newest :: earlier) →
      (Slides host newest earlier ↔ ∀ domain,
        5 ≤ (signupDomains host (newest :: earlier)).countP (· = domain) →
          5 ≤ (signupDomains host (lastFiveMinutes (newest :: earlier))).countP (· = domain))) ∧
    ∀ service, Reachable host service →
      (∀ id s, service.principals.get id = some s → ∃ newest earlier,
        Ordered (newest :: earlier) ∧ s = observed host (newest :: earlier)) ∧
      ∀ env req now, (principalOf req).ipOnly = true →
        (abuseScorer env service req now).1 = .next req.rateContext := by
  refine ⟨fun _ _ ordered => slides_iff ordered, fun service reachable => ?_⟩
  have sound := sound_of_reachable reachable
  constructor
  · intro id s found
    obtain ⟨newest, earlier, ordered, -, same, -⟩ := sound.kept id s found
    exact ⟨newest, earlier, ordered, same⟩
  · exact fun env req now ipOnly => abuseScorer_ipOnly sound env now ipOnly

def plainHost : Host := ⟨id, id, fun base _ => base, id, id⟩

def firstRequest : Observation :=
  ⟨js "203.0.113.7", false, js "GET", js "/api/events", 200, none, none, WINDOW_MS⟩

theorem abuseScorer_slides_iff_first : Slides plainHost firstRequest [] := by
  have none_named : signupDomains plainHost [firstRequest] = [] := by decide
  refine ((abuseScorer_slides_iff plainHost).1 firstRequest [] (List.pairwise_singleton _ _)).mpr ?_
  intro domain many
  rw [none_named] at many
  exact absurd many (by simp)

def signupFarm : History :=
  ["a@1", "a@2", "a@3", "a@4", "a@5"].flatMap fun email => List.replicate 5
    ⟨js "203.0.113.7", false, js "POST", js "/signup", 201, none, some (js email), WINDOW_MS⟩

theorem signupFarm_reaching :
    (OrderedMap.tally (signupDomains plainHost signupFarm)).reaching 5 = 5 := by
  decide

def nextDay : Observation := { firstRequest with now := 86460000 }

/-- The score of the next day is not that of the windows, and whatever comes later the principal
stays suspended. -/
theorem signupFarm_suspended : ¬ Slides plainHost nextDay signupFarm ∧
    ∀ newest later, newest.ipOnly = false →
      (observed plainHost (newest :: later ++ signupFarm)).action = .suspend := by
  constructor
  · intro slides
    have ordered : Ordered (nextDay :: signupFarm) := by decide
    have many : 5 ≤ (signupDomains plainHost (nextDay :: signupFarm)).countP (· = js "1") := by
      decide
    have gone : signupDomains plainHost (lastFiveMinutes (nextDay :: signupFarm)) = [] := by decide
    have still := (slides_iff ordered).mp slides (js "1") many
    rw [gone] at still
    exact absurd still (by simp)
  · intro newest later keyed
    have reaching := signupFarm_reaching
    have part : (signupDomains plainHost signupFarm).Sublist
        (signupDomains plainHost (newest :: (later ++ signupFarm))) :=
      ((List.sublist_append_right (newest :: later) signupFarm).filter _).filterMap _
    have more := OrderedMap.reaching_mono (show 0 < 5 by decide) part
    have high := @score_ge plainHost (observed plainHost (newest :: (later ++ signupFarm)))
      newest.ipOnly
    rw [observed_domains] at high
    have enough : THRESHOLDS.suspend ≤
        (observed plainHost (newest :: (later ++ signupFarm))).score := by
      rw [observed, observe_score, ← observed, THRESHOLDS.suspend]
      omega
    rw [List.cons_append, observed, observe_action, ← observed, keyed, actionOf,
      if_neg (by simp), actionAt, if_pos enough]

end SorobanExplorer.Indexer.AbuseScorer

import SorobanExplorer.Library.KeysetPaging

/-!
Owns reading a table in pages whose tokens carry less than the key of a row. The page after
a row begins below `cut row`, which lies at or below the row's key, so rows between the two
are passed over. A row whose token the server refuses has no page after it.

`follows_iff_aligned` says when every row is reached all the same.
-/

namespace SorobanExplorer.Library

section Lossy

variable {ρ σ τ ε π : Type*} {κ : Type*} [LinearOrder κ]

def below (key : ρ → κ) (bound : κ) (rows : List ρ) : List ρ :=
  rows.filter fun row => key row < bound

/-- A page of rows: the first of them, `shown` says how many, and the token of the last
of these if there are more. -/
structure IsPage (next : π → Option τ) (data : π → List σ) (read : ρ → σ) (tokenOf : ρ → τ)
    (shown : ℕ → ℕ) (rows : List ρ) (page : π) : Prop where
  data_eq : data page = (rows.take (shown rows.length)).map read
  next_eq : next page =
    if shown rows.length < rows.length then (rows.take (shown rows.length)).getLast?.map tokenOf
    else none

structure ServesBelow (ask : Option τ → Except ε π) (next : π → Option τ) (data : π → List σ)
    (read : ρ → σ) (tokenOf : ρ → τ) (shown : ℕ → ℕ) (listing : List ρ) (key cut : ρ → κ)
    (accepted : ρ → Prop) : Prop where
  falls : StrictlyFalls key listing
  cut_le : ∀ row, cut row ≤ key row
  first : ∃ page, ask none = .ok page ∧ IsPage next data read tokenOf shown listing page
  later : ∀ row ∈ listing, accepted row → ∃ page, ask (some (tokenOf row)) = .ok page ∧
    IsPage next data read tokenOf shown (below key (cut row) listing) page
  refused : ∀ row ∈ listing, ¬ accepted row → ∀ page, ask (some (tokenOf row)) ≠ .ok page

/-- Where a page ends and rows are left, its last row is accepted, and the first of the rows
left lies below its cut. -/
inductive Aligned (shown : ℕ → ℕ) (key cut : ρ → κ) (accepted : ρ → Prop) : List ρ → Prop
  | last {rows : List ρ} (all : rows.length ≤ shown rows.length) :
      Aligned shown key cut accepted rows
  | more {front rest : List ρ} {anchor behind : ρ}
      (ends : shown (front ++ anchor :: behind :: rest).length = front.length + 1)
      (accepts : accepted anchor) (low : key behind < cut anchor)
      (left : Aligned shown key cut accepted (behind :: rest)) :
      Aligned shown key cut accepted (front ++ anchor :: behind :: rest)

section Below

variable {key : ρ → κ} {before after : List ρ} {anchor : ρ} {bound : κ}

theorem below_eq_below_after (falls : StrictlyFalls key (before ++ anchor :: after))
    (low : bound ≤ key anchor) :
    below key bound (before ++ anchor :: after) = below key bound after := by
  obtain ⟨_, _, across⟩ := List.pairwise_append.mp falls
  have above : ∀ row ∈ before, ¬ key row < bound := fun row member =>
    not_lt.mpr (low.trans (across row member anchor List.mem_cons_self).le)
  unfold below
  rw [List.filter_append, List.filter_eq_nil_iff.mpr (by simpa using above),
    List.nil_append, List.filter_cons_of_neg (by simpa using low)]

theorem below_eq_self {behind : ρ} {rest : List ρ} (falls : StrictlyFalls key (behind :: rest))
    (first : key behind < bound) : below key bound (behind :: rest) = behind :: rest := by
  apply List.filter_eq_self.mpr
  intro row member
  rw [decide_eq_true_eq]
  rcases List.mem_cons.mp member with rfl | later
  · exact first
  · exact ((List.pairwise_cons.mp falls).1 row later).trans first

theorem below_suffix {rows : List ρ} (falls : StrictlyFalls key rows) :
    below key bound rows <:+ rows := by
  induction rows with
  | nil => exact List.nil_suffix
  | cons row rest ih =>
    by_cases low : key row < bound
    · have all := below_eq_self falls low
      exact ⟨[], all⟩
    · have skipped : below key bound (row :: rest) = below key bound rest :=
        List.filter_cons_of_neg (by simpa using low)
      rw [skipped]
      exact (ih falls.of_cons).trans (List.suffix_cons row rest)

end Below

theorem Follows.first_answered {ask : Option τ → Except ε π} {next : π → Option τ}
    {token : Option τ} {pages : List π} (follows : Follows ask next token pages) :
    ∃ page, ask token = .ok page := by
  cases follows with
  | last own => exact ⟨_, own⟩
  | more own => exact ⟨_, own⟩

theorem exists_page {rows : List ρ} {shown : ℕ} (positive : 0 < shown)
    (more : shown < rows.length) : ∃ front anchor behind rest,
      rows = front ++ anchor :: behind :: rest ∧ shown = front.length + 1 := by
  have last : shown - 1 < rows.length := by omega
  have place : shown - 1 + 1 = shown := by omega
  refine ⟨rows.take (shown - 1), rows[shown - 1], rows[shown], rows.drop (shown + 1), ?_, ?_⟩
  · rw [← List.drop_eq_getElem_cons more]
    conv_lhs => rw [← List.take_append_drop (shown - 1) rows, List.drop_eq_getElem_cons last, place]
  · rw [List.length_take_of_le last.le, place]

section Page

variable {next : π → Option τ} {data : π → List σ} {read : ρ → σ} {tokenOf : ρ → τ}
  {shown : ℕ → ℕ} {rows front rest : List ρ} {anchor behind : ρ} {page : π}

theorem take_page (front rest : List ρ) (anchor : ρ) :
    (front ++ anchor :: rest).take (front.length + 1) = front ++ [anchor] := by
  rw [List.take_length_add_append, List.take_succ_cons, List.take_zero]

theorem IsPage.more
    (isPage : IsPage next data read tokenOf shown (front ++ anchor :: behind :: rest) page)
    (ends : shown (front ++ anchor :: behind :: rest).length = front.length + 1) :
    data page = (front ++ [anchor]).map read ∧ next page = some (tokenOf anchor) := by
  have data := isPage.data_eq
  have next := isPage.next_eq
  have leaves : front.length + 1 < (front ++ anchor :: behind :: rest).length := by
    rw [List.length_append, List.length_cons, List.length_cons]
    omega
  rw [ends, take_page] at data
  rw [ends, take_page, if_pos leaves, List.getLast?_concat, Option.map_some] at next
  exact ⟨data, next⟩

theorem IsPage.split (isPage : IsPage next data read tokenOf shown rows page) {token : τ}
    (goesOn : next page = some token) : ∃ front anchor behind rest,
      rows = front ++ anchor :: behind :: rest ∧ shown rows.length = front.length + 1 := by
  have next := isPage.next_eq
  rw [goesOn] at next
  split_ifs at next with more
  apply exists_page _ more
  by_contra none
  rw [Nat.eq_zero_of_not_pos none] at next
  cases next

end Page

namespace ServesBelow

variable {ask : Option τ → Except ε π} {next : π → Option τ} {data : π → List σ} {read : ρ → σ}
  {tokenOf : ρ → τ} {shown : ℕ → ℕ} {listing : List ρ} {key cut : ρ → κ} {accepted : ρ → Prop}

theorem split_behind {before front rest : List ρ} {anchor : ρ}
    (split : before ++ (front ++ anchor :: rest) = listing) :
    (before ++ (front ++ [anchor])) ++ rest = listing := by
  rw [← split]
  simp

theorem falls_of_split
    (serves : ServesBelow ask next data read tokenOf shown listing key cut accepted)
    {before rows : List ρ} (split : before ++ rows = listing) : StrictlyFalls key rows :=
  (split ▸ serves.falls).sublist (List.sublist_append_right before rows)

theorem below_eq (serves : ServesBelow ask next data read tokenOf shown listing key cut accepted)
    {before front rest : List ρ} {anchor : ρ}
    (split : before ++ (front ++ anchor :: rest) = listing) :
    below key (cut anchor) listing = below key (cut anchor) rest := by
  rw [← split, ← List.append_assoc]
  apply below_eq_below_after _ (serves.cut_le anchor)
  rw [List.append_assoc, split]
  exact serves.falls

theorem follows_of_aligned
    (serves : ServesBelow ask next data read tokenOf shown listing key cut accepted)
    {rows : List ρ} (aligned : Aligned shown key cut accepted rows) {before : List ρ}
    (split : before ++ rows = listing) {token : Option τ} {page : π} (answer : ask token = .ok page)
    (isPage : IsPage next data read tokenOf shown rows page) :
    ∃ pages, Follows ask next token pages ∧ pages.flatMap data = rows.map read := by
  induction aligned generalizing before token page with
  | last all =>
    have stop := isPage.next_eq
    rw [if_neg (not_lt.mpr all)] at stop
    refine ⟨[page], Follows.last answer stop, ?_⟩
    rw [List.flatMap_singleton, isPage.data_eq, List.take_of_length_le all]
  | @more front rest anchor behind ends accepts low _ ih =>
    obtain ⟨shows, goesOn⟩ := isPage.more ends
    have listed : anchor ∈ listing := by rw [← split]; simp
    obtain ⟨nextPage, nextAnswer, nextIsPage⟩ := serves.later anchor listed accepts
    have splitLeft := split_behind split
    have all : below key (cut anchor) listing = behind :: rest := by
      rw [serves.below_eq split]
      exact below_eq_self (serves.falls_of_split splitLeft) low
    rw [all] at nextIsPage
    obtain ⟨pages, follows, rowsLeft⟩ := ih splitLeft nextAnswer nextIsPage
    refine ⟨page :: pages, Follows.more answer goesOn follows, ?_⟩
    rw [List.flatMap_cons, rowsLeft, shows, ← List.map_append, List.append_assoc,
      List.singleton_append]

theorem next_page
    (serves : ServesBelow ask next data read tokenOf shown listing key cut accepted)
    {before front rest : List ρ} {anchor behind : ρ}
    (split : before ++ (front ++ anchor :: behind :: rest) = listing) {nextPage : π}
    (answer : ask (some (tokenOf anchor)) = .ok nextPage) :
    accepted anchor ∧
      below key (cut anchor) (behind :: rest) <:+ behind :: rest ∧
      IsPage next data read tokenOf shown (below key (cut anchor) (behind :: rest)) nextPage := by
  have listed : anchor ∈ listing := by rw [← split]; simp
  have accepts : accepted anchor := by
    by_contra refused
    exact serves.refused anchor listed refused nextPage answer
  obtain ⟨same, sameAnswer, nextIsPage⟩ := serves.later anchor listed accepts
  cases sameAnswer.symm.trans answer
  rw [serves.below_eq split] at nextIsPage
  refine ⟨accepts, below_suffix ?_, nextIsPage⟩
  exact serves.falls_of_split (split_behind split)

theorem split_suffix {before rows later : List ρ} (split : before ++ rows = listing)
    (suffix : later <:+ rows) : ∃ passed, passed ++ later = listing := by
  obtain ⟨between, same⟩ := suffix
  exact ⟨before ++ between, by rw [List.append_assoc, same, split]⟩

theorem sublist_of_follows
    (serves : ServesBelow ask next data read tokenOf shown listing key cut accepted)
    {token : Option τ} {pages : List π} (follows : Follows ask next token pages)
    {before rows : List ρ} (split : before ++ rows = listing) {page : π}
    (answer : ask token = .ok page) (isPage : IsPage next data read tokenOf shown rows page) :
    (pages.flatMap data).Sublist (rows.map read) := by
  induction follows generalizing before rows page with
  | last own stop =>
    cases own.symm.trans answer
    rw [List.flatMap_singleton, isPage.data_eq]
    exact (List.take_sublist _ rows).map read
  | more own goesOn follows ih =>
    cases own.symm.trans answer
    obtain ⟨front, anchor, behind, rest, rfl, ends⟩ := isPage.split goesOn
    obtain ⟨shows, last⟩ := isPage.more ends
    cases goesOn.symm.trans last
    obtain ⟨nextPage, nextAnswer⟩ := follows.first_answered
    obtain ⟨-, suffix, nextIsPage⟩ := serves.next_page split nextAnswer
    obtain ⟨passed, splitLater⟩ := split_suffix (split_behind split) suffix
    have fewer := ih splitLater nextAnswer nextIsPage
    have parts : (front ++ anchor :: behind :: rest).map read =
        (front ++ [anchor]).map read ++ (behind :: rest).map read := by simp
    rw [List.flatMap_cons, shows, parts]
    exact (List.Sublist.refl _).append (fewer.trans (suffix.sublist.map read))

theorem aligned_of_follows
    (serves : ServesBelow ask next data read tokenOf shown listing key cut accepted)
    {token : Option τ} {pages : List π} (follows : Follows ask next token pages)
    {before rows : List ρ} (split : before ++ rows = listing) {page : π}
    (answer : ask token = .ok page) (isPage : IsPage next data read tokenOf shown rows page)
    (all : pages.flatMap data = rows.map read) : Aligned shown key cut accepted rows := by
  induction follows generalizing before rows page with
  | last own stop =>
    cases own.symm.trans answer
    apply Aligned.last
    have shows := congrArg List.length all
    rw [List.flatMap_singleton, isPage.data_eq, List.length_map, List.length_map,
      List.length_take] at shows
    omega
  | more own goesOn follows ih =>
    cases own.symm.trans answer
    obtain ⟨front, anchor, behind, rest, rfl, ends⟩ := isPage.split goesOn
    obtain ⟨shows, last⟩ := isPage.more ends
    cases goesOn.symm.trans last
    obtain ⟨nextPage, nextAnswer⟩ := follows.first_answered
    obtain ⟨accepts, suffix, nextIsPage⟩ := serves.next_page split nextAnswer
    obtain ⟨passed, splitLater⟩ := split_suffix (split_behind split) suffix
    have fewer := serves.sublist_of_follows follows splitLater nextAnswer nextIsPage
    have parts : (front ++ anchor :: behind :: rest).map read =
        (front ++ [anchor]).map read ++ (behind :: rest).map read := by simp
    rw [List.flatMap_cons, shows, parts] at all
    have left := List.append_cancel_left all
    have length : (behind :: rest).length ≤ (below key (cut anchor) (behind :: rest)).length := by
      have short := fewer.length_le
      rwa [left, List.length_map, List.length_map] at short
    have same := suffix.eq_of_length (le_antisymm suffix.length_le length)
    rw [same] at nextIsPage splitLater
    have low : key behind < cut anchor := by
      have member : behind ∈ behind :: rest := List.mem_cons_self
      rw [← same] at member
      exact of_decide_eq_true (List.mem_filter.mp member).2
    exact Aligned.more ends accepts low
      (ih splitLater nextAnswer nextIsPage left)

theorem follows_iff_aligned
    (serves : ServesBelow ask next data read tokenOf shown listing key cut accepted) :
    (∃ pages, Follows ask next none pages ∧ pages.flatMap data = listing.map read) ↔
      Aligned shown key cut accepted listing := by
  obtain ⟨page, answer, isPage⟩ := serves.first
  constructor
  · rintro ⟨pages, follows, all⟩
    exact serves.aligned_of_follows follows (List.nil_append listing) answer isPage all
  · intro aligned
    exact serves.follows_of_aligned aligned (List.nil_append listing) answer isPage

end ServesBelow

end Lossy

end SorobanExplorer.Library

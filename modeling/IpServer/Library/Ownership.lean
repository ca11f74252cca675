import IpServer.Library.Machine
import IpServer.Library.Resources
import Mathlib.Logic.Equiv.Basic

/-!
# Ownership

Objects that own resources. Constructing an object acquires them, or fails and gives back what it
has acquired; moving from an object hands them over; destroying an object, or assigning another one
to it, releases them.

* `Ownership.step`, `Ownership.Permits`: what an operation does to who holds what, and what it may
  do to the resources.
* `Ownership.Permits.released`: only the holder of a resource releases it.
* `Ownership.Sound`: open are exactly the resources that some object holds, and no two objects
  hold the same; every operation preserves it (`Ownership.Sound.step`).
* `Ownership.Sound.released`: so what has been acquired is held by one object, or has been released
  once.
-/

namespace IpServer

/-- An operation on the objects at the places `ι`, which are constructed from an `α` and used with
    a `β`. -/
inductive ObjectOp (ι α β : Type*)
  | construct (i : ι) (input : α)
  | moveConstruct (i j : ι)
  | moveAssign (i j : ι)
  | use (i : ι) (input : β)
  | destroy (i : ι)

namespace ObjectOp

variable {ι α β : Type*}

/-- The place of the object that an operation is performed on. -/
def target : ObjectOp ι α β → ι
  | .construct i _ => i
  | .moveConstruct i _ => i
  | .moveAssign i _ => i
  | .use i _ => i
  | .destroy i => i

/-- The operation puts another object at `i`, or takes the one there away. -/
def Writes (i : ι) : ObjectOp ι α β → Prop
  | .construct i' _ => i' = i
  | .moveConstruct i' _ => i' = i
  | .moveAssign i' j => i' = i ∧ j ≠ i
  | .use _ _ => False
  | .destroy i' => i' = i

end ObjectOp

open ResourceEvent

/-- Who holds what: at each place there may be an object, which may hold the resources from one
    construction; the next construction gets the number `next`. -/
structure Ownership (ι : Type*) where
  holds : ι → Option (Option ℕ)
  next : ℕ

namespace Ownership

variable {ι α β : Type*} [DecidableEq ι]

/-- What the object at `j` holds is handed over to the one at `i`. -/
def move (s : Ownership ι) (i j : ι) : Ownership ι :=
  { s with holds := Function.update (Function.update s.holds i (s.holds j)) j (some none) }

/-- An operation, where `succeeds` tells which constructions do. Without the objects it needs, or
    with one in the way, it is not performed. -/
def step (succeeds : α → Bool) : Machine (Ownership ι) (ObjectOp ι α β) Unit
  | s, .construct i input => ((),
    if s.holds i = none then
      { holds := if succeeds input then Function.update s.holds i (some (some s.next)) else s.holds
        next := s.next + 1 }
    else s)
  | s, .moveConstruct i j => ((), if s.holds i = none ∧ s.holds j ≠ none then s.move i j else s)
  | s, .moveAssign i j => ((),
    if i ≠ j ∧ s.holds i ≠ none ∧ s.holds j ≠ none then s.move i j else s)
  | s, .use _ _ => ((), s)
  | s, .destroy i => ((), { s with holds := Function.update s.holds i none })

/-- A construction with the number `n` acquires as many resources as there are levels, or fails
    and has none left. -/
def Constructs (depth n : ℕ) (succeeds : Bool) (es : List ResourceEvent) : Prop :=
  if succeeds then Acquires n 0 es depth
  else ∃ m ≤ depth, ∃ up down, es = up ++ down ∧ Acquires n 0 up m ∧ Releases n m down 0

/-- What has been held is released. -/
def GivesUp (depth : ℕ) : Option ℕ → List ResourceEvent → Prop
  | some n, es => Releases n depth es 0
  | none, es => es = []

/-- Only what is held is used. -/
def OnlyUses (depth : ℕ) (held : Option ℕ) (es : List ResourceEvent) : Prop :=
  ∀ e ∈ es, ∃ n level, held = some n ∧ level < depth ∧ e = .use ⟨n, level⟩

/-- What an operation may do to the resources. -/
def Permits (depth : ℕ) (succeeds : α → Bool) (s : Ownership ι) :
    ObjectOp ι α β → List ResourceEvent → Prop
  | .construct i input, es =>
    if s.holds i = none then Constructs depth s.next (succeeds input) es else es = []
  | .moveConstruct _ _, es => es = []
  | .moveAssign i j, es =>
    if i ≠ j ∧ s.holds i ≠ none ∧ s.holds j ≠ none then GivesUp depth (s.holds i).join es
    else es = []
  | .use i _, es => OnlyUses depth (s.holds i).join es
  | .destroy i, es => GivesUp depth (s.holds i).join es

/-- After the events of a proper log, exactly those resources are open that an object holds, and
    no two objects hold the same. -/
structure Sound (depth : ℕ) (s : Ownership ι) (log : List ResourceEvent) : Prop where
  proper : Proper log
  past : ∀ e ∈ log, e.resource.origin < s.next
  level : ∀ r, .acquire r ∈ log → r.level < depth
  held : ∀ i n, s.holds i = some (some n) → n < s.next
  unique : ∀ i j n, s.holds i = some (some n) → s.holds j = some (some n) → i = j
  isOpen_iff : ∀ r, IsOpen log r ↔ r.level < depth ∧ ∃ i, s.holds i = some (some r.origin)

variable {depth : ℕ} {succeeds : α → Bool} {s : Ownership ι} {log es : List ResourceEvent}
  {i j : ι} {n : ℕ}

/-! ### Who releases what -/

/-- A construction releases only what it has acquired. -/
theorem Constructs.acquired {succeeds : Bool} (h : Constructs depth n succeeds es) {r : Resource}
    (hr : .release r ∈ es) : .acquire r ∈ es := by
  rw [Constructs] at h
  split at h
  · exact absurd hr (h.not_release r)
  · obtain ⟨m, -, up, down, rfl, hup, hdown⟩ := h
    have hopen : OpenTo [] n 0 :=
      fun k => iff_of_false (fun hopen => List.not_mem_nil hopen.1) (Nat.not_lt_zero k)
    have hfresh : FreshFrom [] n 0 := fun _ _ => ⟨List.not_mem_nil, List.not_mem_nil⟩
    obtain ⟨hproper, hopen⟩ := hup.proper Proper.nil hopen hfresh
    obtain ⟨pre, post, hsplit⟩ := List.append_of_mem hr
    have hfollows := (hdown.proper hproper hopen).1 pre _ post (by rw [List.nil_append, hsplit])
    rw [hsplit]
    exact List.mem_append_left _ hfollows.1.1

/-- Giving up releases only what has been held. -/
theorem GivesUp.held {held : Option ℕ} (h : GivesUp depth held es) {r : Resource}
    (hr : .release r ∈ es) : held = some r.origin := by
  rcases held with _ | n
  · obtain rfl : es = [] := h
    exact absurd hr List.not_mem_nil
  · have h : Releases n depth es 0 := h
    exact congrArg some (h.origin _ hr).symm

/-- Only the object that holds a resource releases it, or else the construction that acquired
    it and failed. -/
theorem Permits.released {op : ObjectOp ι α β} (h : Permits depth succeeds s op es) {r : Resource}
    (hr : .release r ∈ es) :
    s.holds op.target = some (some r.origin) ∨ .acquire r ∈ es := by
  have hnil (hes : es = []) : False := by
    rw [hes] at hr
    exact List.not_mem_nil hr
  rcases op with ⟨i, input⟩ | ⟨i, j⟩ | ⟨i, j⟩ | ⟨i, input⟩ | i
  · rw [Permits] at h
    split at h
    · exact .inr (h.acquired hr)
    · exact (hnil h).elim
  · exact (hnil h).elim
  · rw [Permits] at h
    split at h
    · exact .inl (Option.join_eq_some_iff.1 (h.held hr))
    · exact (hnil h).elim
  · obtain ⟨n, level, -, -, heq⟩ := h _ hr
    cases heq
  · exact .inl (Option.join_eq_some_iff.1 (h.held hr))

/-- An object that holds nothing stays so until another one is put in its place. -/
theorem holds_step {op : ObjectOp ι α β} (h : s.holds j = some none) (hop : ¬op.Writes j) :
    (step succeeds s op).2.holds j = some none := by
  have hmove {i j' : ι} (hne : i ≠ j) : (s.move i j').holds j = some none := by
    rw [move]
    dsimp only
    rw [Function.update_apply, Function.update_of_ne hne.symm, h, ite_self]
  rcases op with ⟨i, input⟩ | ⟨i, j'⟩ | ⟨i, j'⟩ | ⟨i, input⟩ | i
  · have hne : i ≠ j := hop
    rw [step]
    dsimp only
    split
    · split
      · exact (Function.update_of_ne hne.symm _ _).trans h
      · exact h
    · exact h
  · rw [step]
    dsimp only
    split
    · exact hmove hop
    · exact h
  · rw [step]
    dsimp only
    split
    · next hij =>
      by_cases hi : i = j
      · subst hi
        exact absurd ⟨rfl, hij.1.symm⟩ hop
      · exact hmove hi
    · exact h
  · exact h
  · exact (Function.update_of_ne (Ne.symm hop) _ _).trans h

/-! ### Objects and resources stay in step -/

namespace Sound

omit [DecidableEq ι] in
protected theorem empty (depth : ℕ) : Sound depth (⟨fun _ => none, 0⟩ : Ownership ι) [] where
  proper := Proper.nil
  past := List.forall_mem_nil _
  level _ h := absurd h List.not_mem_nil
  held _ _ h := by cases h
  unique _ _ _ h := by cases h
  isOpen_iff r := iff_of_false (fun h => absurd h.1 List.not_mem_nil) fun ⟨_, _, h⟩ => by cases h

omit [DecidableEq ι] in
/-- The next construction has a number that nothing has happened under. -/
theorem fresh (h : Sound depth s log) :
    OpenTo log s.next 0 ∧ FreshFrom log s.next 0 := by
  have hnot (e : ResourceEvent) (he : e.resource.origin = s.next) : e ∉ log := fun hmem =>
    absurd (h.past e hmem) (he ▸ Nat.lt_irrefl _)
  refine ⟨fun k => iff_of_false (fun hopen => hnot _ rfl hopen.1) (Nat.not_lt_zero k), ?_⟩
  exact fun k _ => ⟨hnot _ rfl, hnot _ rfl⟩

omit [DecidableEq ι] in
/-- What an object holds is open. -/
theorem openTo (h : Sound depth s log) (hi : s.holds i = some (some n)) : OpenTo log n depth :=
  fun k => (h.isOpen_iff ⟨n, k⟩).trans ⟨And.left, fun hk => ⟨hk, i, hi⟩⟩

omit [DecidableEq ι] in
/-- Events of one origin are about a number below the next one. -/
theorem past_append (h : Sound depth s log) {next : ℕ} (hle : s.next ≤ next) (hn : n < next)
    (hes : ∀ e ∈ es, e.resource.origin = n) : ∀ e ∈ log ++ es, e.resource.origin < next := by
  intro e he
  rcases List.mem_append.1 he with he | he
  · exact Nat.lt_of_lt_of_le (h.past e he) hle
  · rw [hes e he]
    exact hn

omit [DecidableEq ι] in
/-- Open resources are used. -/
theorem uses (h : Sound depth s log) (hes : ∀ e ∈ es, ∃ r, e = .use r ∧ IsOpen log r) :
    Sound depth s (log ++ es) := by
  induction es generalizing log with
  | nil => rwa [List.append_nil]
  | cons e es ih =>
    obtain ⟨⟨r, rfl, hr⟩, hrest⟩ := List.forall_mem_cons.1 hes
    rw [List.append_cons]
    refine ih ?_ fun e he => ?_
    · refine ⟨h.proper.concat hr, ?_, fun r' hr' => ?_, h.held, h.unique, fun r' => ?_⟩
      · refine h.past_append (le_refl _) (h.past _ hr.1) fun e he => ?_
        rw [List.mem_singleton.1 he]
        rfl
      · exact h.level r' (by simpa using hr')
      · rw [isOpen_concat_use, h.isOpen_iff]
    · obtain ⟨r', rfl, hr'⟩ := hrest e he
      exact ⟨r', rfl, (isOpen_concat_use _ _).2 hr'⟩

/-- A construction succeeds. -/
theorem construct (h : Sound depth s log) (hi : s.holds i = none)
    (hes : Acquires s.next 0 es depth) :
    Sound depth ⟨Function.update s.holds i (some (some s.next)), s.next + 1⟩ (log ++ es) := by
  obtain ⟨hopen, hfresh⟩ := h.fresh
  obtain ⟨hproper, hopen⟩ := hes.proper h.proper hopen hfresh
  have hheld (j : ι) (n : ℕ)
      (hj : Function.update s.holds i (some (some s.next)) j = some (some n)) :
      j = i ∧ n = s.next ∨ j ≠ i ∧ s.holds j = some (some n) := by
    by_cases heq : j = i
    · subst heq
      rw [Function.update_self] at hj
      exact .inl ⟨rfl, (Option.some.inj (Option.some.inj hj)).symm⟩
    · exact .inr ⟨heq, by rwa [Function.update_of_ne heq] at hj⟩
  refine ⟨hproper, h.past_append (Nat.le_succ _) (Nat.lt_succ_self _) hes.origin, fun r hr => ?_,
    fun j n hj => ?_, fun j j' n hj hj' => ?_, fun r => ?_⟩
  · rcases List.mem_append.1 hr with hr | hr
    · exact h.level r hr
    · exact hes.level_lt r hr
  · rcases hheld j n hj with ⟨-, rfl⟩ | ⟨-, hj⟩
    · exact Nat.lt_succ_self _
    · exact Nat.lt_succ_of_lt (h.held j n hj)
  · -- a number that is held is older than the new one
    rcases hheld j n hj with ⟨rfl, rfl⟩ | ⟨-, hj⟩
    · rcases hheld j' _ hj' with ⟨rfl, -⟩ | ⟨-, hj'⟩
      · rfl
      · exact absurd (h.held j' _ hj') (Nat.lt_irrefl _)
    · rcases hheld j' n hj' with ⟨-, rfl⟩ | ⟨-, hj'⟩
      · exact absurd (h.held j _ hj) (Nat.lt_irrefl _)
      · exact h.unique j j' n hj hj'
  · rw [Function.exists_update_iff s.holds fun _ x => x = some (some r.origin)]
    by_cases hr : r.origin = s.next
    · have hlevel := hopen r.level
      rw [← hr] at hlevel ⊢
      exact hlevel.trans ⟨fun hlt => ⟨hlt, .inl rfl⟩, And.left⟩
    · rw [isOpen_append fun e he heq => hr (heq.symm.trans (hes.origin e he)), h.isOpen_iff]
      refine and_congr_right fun _ => ⟨fun ⟨j, hj⟩ => .inr ⟨j, ?_, hj⟩, ?_⟩
      · rintro rfl
        rw [hi] at hj
        cases hj
      · rintro (heq | ⟨j, -, hj⟩)
        · exact absurd (Option.some.inj (Option.some.inj heq)).symm hr
        · exact ⟨j, hj⟩

omit [DecidableEq ι] in
/-- A construction fails. -/
theorem constructFails (h : Sound depth s log) {m : ℕ} {up down : List ResourceEvent}
    (hm : m ≤ depth) (hup : Acquires s.next 0 up m) (hdown : Releases s.next m down 0) :
    Sound depth { s with next := s.next + 1 } (log ++ (up ++ down)) := by
  obtain ⟨hopen, hfresh⟩ := h.fresh
  obtain ⟨hproper, hopen⟩ := hup.proper h.proper hopen hfresh
  obtain ⟨hproper, hopen⟩ := hdown.proper hproper hopen
  rw [List.append_assoc] at hproper hopen
  have horigin : ∀ e ∈ up ++ down, e.resource.origin = s.next := fun e he =>
    (List.mem_append.1 he).elim (hup.origin e) (hdown.origin e)
  refine ⟨hproper, h.past_append (Nat.le_succ _) (Nat.lt_succ_self _) horigin, fun r hr => ?_,
    fun i n hi => Nat.lt_succ_of_lt (h.held i n hi), h.unique, fun r => ?_⟩
  · rw [List.mem_append, List.mem_append] at hr
    rcases hr with hr | hr | hr
    · exact h.level r hr
    · exact Nat.lt_of_lt_of_le (hup.level_lt r hr) hm
    · exact absurd hr (hdown.not_acquire r)
  · by_cases hr : r.origin = s.next
    · have hlevel := hopen r.level
      rw [← hr] at hlevel
      refine iff_of_false (fun hr' => Nat.not_lt_zero _ (hlevel.1 hr')) fun ⟨_, i, hi⟩ => ?_
      exact absurd (h.held i _ hi) (hr ▸ Nat.lt_irrefl _)
    · rw [isOpen_append fun e he heq => hr (heq.symm.trans (horigin e he)), h.isOpen_iff]

/-- An object gives up what it holds, and holds nothing any more. -/
theorem givesUp (h : Sound depth s log) (hes : GivesUp depth (s.holds i).join es)
    {x : Option (Option ℕ)} (hx : x.join = none) :
    Sound depth { s with holds := Function.update s.holds i x } (log ++ es) := by
  have hnot (n : ℕ) : x ≠ some (some n) := by
    rintro rfl
    cases hx
  have hheld (j : ι) (n : ℕ) (hj : Function.update s.holds i x j = some (some n)) :
      j ≠ i ∧ s.holds j = some (some n) := by
    by_cases heq : j = i
    · subst heq
      rw [Function.update_self] at hj
      exact absurd hj (hnot n)
    · exact ⟨heq, by rwa [Function.update_of_ne heq] at hj⟩
  have hexists (n : ℕ) : (∃ j, Function.update s.holds i x j = some (some n)) ↔
      (∃ j, s.holds j = some (some n)) ∧ (s.holds i).join ≠ some n := by
    constructor
    · rintro ⟨j, hj⟩
      obtain ⟨hne, hj⟩ := hheld j n hj
      refine ⟨⟨j, hj⟩, fun hi => hne (h.unique j i n hj ?_)⟩
      exact Option.join_eq_some_iff.1 hi
    · rintro ⟨⟨j, hj⟩, hi⟩
      refine ⟨j, ?_⟩
      rw [Function.update_of_ne, hj]
      rintro rfl
      exact hi (by rw [hj]; rfl)
  rcases hi : (s.holds i).join with _ | n
  · -- there is nothing to give up
    rw [hi] at hes
    obtain rfl : es = [] := hes
    rw [List.append_nil]
    refine ⟨h.proper, h.past, h.level, fun j n hj => h.held j n (hheld j n hj).2,
      fun j j' n hj hj' => h.unique j j' n (hheld j n hj).2 (hheld j' n hj').2, fun r => ?_⟩
    rw [h.isOpen_iff, hexists, hi]
    exact and_congr_right fun _ => ⟨fun hr => ⟨hr, Option.some_ne_none _ ∘ Eq.symm⟩, And.left⟩
  · rw [hi] at hes
    have hes : Releases n depth es 0 := hes
    have hn : s.holds i = some (some n) := Option.join_eq_some_iff.1 hi
    obtain ⟨hproper, hopen⟩ := hes.proper h.proper (h.openTo hn)
    refine ⟨hproper, h.past_append (le_refl _) (h.held i n hn) hes.origin, fun r hr => ?_,
      fun j n hj => h.held j n (hheld j n hj).2,
      fun j j' n hj hj' => h.unique j j' n (hheld j n hj).2 (hheld j' n hj').2, fun r => ?_⟩
    · rcases List.mem_append.1 hr with hr | hr
      · exact h.level r hr
      · exact absurd hr (hes.not_acquire r)
    · rw [hexists, hi]
      by_cases hr : r.origin = n
      · have hlevel := hopen r.level
        rw [← hr] at hlevel ⊢
        exact iff_of_false (fun hr' => Nat.not_lt_zero _ (hlevel.1 hr')) fun hr' => hr'.2.2 rfl
      · rw [isOpen_append fun e he heq => hr (heq.symm.trans (hes.origin e he)), h.isOpen_iff]
        refine and_congr_right fun _ => ⟨fun hr' => ⟨hr', fun heq => ?_⟩, And.left⟩
        exact hr (Option.some.inj heq).symm

omit [DecidableEq ι] in
/-- Which object is at which place does not matter. -/
theorem comp (h : Sound depth s log) (σ : Equiv.Perm ι) :
    Sound depth { s with holds := s.holds ∘ σ } log where
  proper := h.proper
  past := h.past
  level := h.level
  held i n hi := h.held (σ i) n hi
  unique i j n hi hj := σ.injective (h.unique (σ i) (σ j) n hi hj)
  isOpen_iff r := by
    rw [h.isOpen_iff, σ.surjective.exists]
    rfl

/-- An object that holds nothing takes over what another one holds: the two are exchanged. -/
theorem move (h : Sound depth s log) (hij : i ≠ j) (hes : GivesUp depth (s.holds i).join es) :
    Sound depth (s.move i j) (log ++ es) := by
  have hswap := (@givesUp _ _ _ _ _ _ _ h hes (some none) rfl).comp (Equiv.swap j i)
  dsimp only at hswap
  rw [Equiv.comp_swap_eq_update, Function.update_self, Function.update_of_ne hij.symm,
    Function.update_idem] at hswap
  exact hswap

/-- Every operation keeps the objects and the resources in step. -/
theorem step (h : Sound depth s log) {op : ObjectOp ι α β}
    (hes : Permits depth succeeds s op es) :
    Sound depth (Ownership.step succeeds s op).2 (log ++ es) := by
  rcases op with ⟨i, input⟩ | ⟨i, j⟩ | ⟨i, j⟩ | ⟨i, input⟩ | i
  · rw [Permits] at hes
    rw [Ownership.step]
    split at hes
    · next hi =>
      rw [if_pos hi]
      rw [Constructs] at hes
      split at hes
      · next hsucceeds =>
        rw [if_pos hsucceeds]
        exact h.construct hi hes
      · next hfails =>
        obtain ⟨m, hm, up, down, rfl, hup, hdown⟩ := hes
        rw [if_neg hfails]
        exact h.constructFails hm hup hdown
    · next hi =>
      rw [if_neg hi, hes, List.append_nil]
      exact h
  · rw [Permits] at hes
    rw [Ownership.step, hes]
    split
    · next hij =>
      -- there is no object yet at `i`, so that nothing is given up
      refine h.move (fun heq => hij.2 (heq ▸ hij.1)) ?_
      rw [hij.1]
      exact rfl
    · rwa [List.append_nil]
  · rw [Permits] at hes
    rw [Ownership.step]
    split at hes
    · next hij =>
      rw [if_pos hij]
      exact h.move hij.1 hes
    · next hij =>
      rw [if_neg hij, hes, List.append_nil]
      exact h
  · refine h.uses fun e he => ?_
    obtain ⟨n, level, hn, hlevel, rfl⟩ := hes e he
    exact ⟨⟨n, level⟩, rfl, (h.isOpen_iff _).2 ⟨hlevel, i, Option.join_eq_some_iff.1 hn⟩⟩
  · exact h.givesUp hes rfl

omit [DecidableEq ι] in
/-- A resource that has been acquired is held by one object, or has been released once. -/
theorem released (h : Sound depth s log) {r : Resource} (hr : .acquire r ∈ log) :
    (∃! i, s.holds i = some (some r.origin)) ∧ log.count (.release r) = 0 ∨
      (∀ i, s.holds i ≠ some (some r.origin)) ∧ log.count (.release r) = 1 := by
  by_cases hrelease : .release r ∈ log
  · refine .inr ⟨fun i hi => ?_, h.proper.count_release hrelease⟩
    exact ((h.isOpen_iff r).2 ⟨h.level r hr, i, hi⟩).2 hrelease
  · obtain ⟨-, i, hi⟩ := (h.isOpen_iff r).1 ⟨hr, hrelease⟩
    exact .inl ⟨⟨i, hi, fun j hj => h.unique j i _ hj hi⟩, List.count_eq_zero_of_not_mem hrelease⟩

end Sound

end Ownership

end IpServer

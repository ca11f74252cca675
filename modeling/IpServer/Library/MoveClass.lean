import IpServer.Library.Ownership

/-!
# Classes that can be moved

A class whose objects own resources, by its special members and one member function: what they
make of the object, and the calls they make. Its objects, at the places where they are constructed,
moved, used and destroyed, are a machine (`MoveClass.step`).

* `MoveClass.Owns`: what the members have to do, one by one, for the objects to own what they
  acquire.
* `MoveClass.Owns.refines`: then the machine refines the ownership.
* `MoveClass.Owns.safe`: so in every run what is acquired is released once, by its last holder
  and not before, and an object that nothing is left of uses nothing.
-/

namespace IpServer

open ResourceEvent Ownership

/-- A class: its constructor, which is given the number of the construction, its move constructor
    and move assignment, a member function and the destructor. A move leaves something of the other
    object, and an assignment is told whether the two are the same. -/
structure MoveClass (O α β γ ε C : Type*) where
  construct : ℕ → α → Except ε O × List C
  moveConstruct : O → O × O
  moveAssign : Bool → O → O → (O × O) × List C
  use : O → β → γ × List C
  destroy : O → List C

/-- The objects at the places, and the number of the next construction. -/
structure Objects (ι O : Type*) where
  at? : ι → Option O
  next : ℕ

/-- No objects. -/
def Objects.empty {ι O : Type*} : Objects ι O := ⟨fun _ => none, 0⟩

/-- Who holds what, where `held` is what an object holds. -/
def Objects.ownership {ι O : Type*} (held : O → Option ℕ) (s : Objects ι O) : Ownership ι :=
  ⟨Option.map held ∘ s.at?, s.next⟩

/-- What an operation gives: an exception, an answer or neither, and the calls it makes. -/
structure Effect (ε γ C : Type*) where
  threw : Option ε := none
  answer : Option γ := none
  calls : List C := []

namespace MoveClass

variable {ι O α β γ ε C : Type*} [DecidableEq ι] (c : MoveClass O α β γ ε C)

/-- The objects as a machine. Without the objects it needs, or with one in the way, an operation
    is not performed. -/
def step : Machine (Objects ι O) (ObjectOp ι α β) (Effect ε γ C)
  | s, .construct i input =>
    match s.at? i with
    | some _ => ({}, s)
    | none =>
      match c.construct s.next input with
      | (.ok o, calls) => ({ calls }, ⟨Function.update s.at? i (some o), s.next + 1⟩)
      | (.error e, calls) => ({ threw := some e, calls }, { s with next := s.next + 1 })
  | s, .moveConstruct i j =>
    match s.at? i, s.at? j with
    | none, some other =>
      let moved := c.moveConstruct other
      ({}, { s with
        at? := Function.update (Function.update s.at? i (some moved.1)) j (some moved.2) })
    | _, _ => ({}, s)
  | s, .moveAssign i j =>
    match s.at? i, s.at? j with
    | some o, some other =>
      let moved := c.moveAssign (decide (i = j)) o other
      ({ calls := moved.2 }, { s with
        at? := Function.update (Function.update s.at? i (some moved.1.1)) j (some moved.1.2) })
    | _, _ => ({}, s)
  | s, .use i input =>
    match s.at? i with
    | some o => ({ answer := some (c.use o input).1, calls := (c.use o input).2 }, s)
    | none => ({}, s)
  | s, .destroy i =>
    match s.at? i with
    | some o => ({ calls := c.destroy o }, { s with at? := Function.update s.at? i none })
    | none => ({}, s)

/-- The objects after a run. -/
def after (ops : List (ObjectOp ι α β)) : Objects ι O := c.step.run .empty ops

variable (event : C → Option ResourceEvent) (held : O → Option ℕ)

/-- What an operation does to the resources. -/
def events (s : Objects ι O) (op : ObjectOp ι α β) : List ResourceEvent :=
  (c.step s op).1.calls.filterMap event

/-- The calls made along a run. -/
def calls (ops : List (ObjectOp ι α β)) : List C :=
  c.step.emitted (fun s op => (c.step s op).1.calls) .empty ops

/-- What a run has done to the resources. -/
def log (ops : List (ObjectOp ι α β)) : List ResourceEvent := (c.calls ops).filterMap event

/-- After a run, the object at `i` holds the resources from the construction `n`. -/
def Holds (ops : List (ObjectOp ι α β)) (i : ι) (n : ℕ) : Prop :=
  ((c.after ops).ownership held).holds i = some (some n)

/-- An operation that moves from the object at `j`. -/
def MovesFrom (s : Objects ι O) (op : ObjectOp ι α β) (j : ι) : Prop :=
  (s.at? j).isSome ∧ ∃ i, i ≠ j ∧
    (op = .moveConstruct i j ∧ s.at? i = none ∨ op = .moveAssign i j ∧ (s.at? i).isSome)

/-- What a run guarantees. The objects hold what the operations say. What has been acquired is
    acquired once, and released once unless an object holds it, which is then the only one; nothing
    is used or released that is not open. The next operation releases only what its object holds, or
    what it has acquired itself. The next use of an object uses only what it holds; an object that
    holds nothing makes no calls, and one that has been moved from holds nothing, whatever happens
    to other objects. -/
structure Safe (succeeds : α → Bool) (notOpen : β → γ) (ops : List (ObjectOp ι α β)) : Prop where
  follows : (c.after ops).ownership held = (Ownership.step succeeds).run ⟨fun _ => none, 0⟩ ops
  proper : Proper (c.log event ops)
  once : ∀ r, .acquire r ∈ c.log event ops → (c.log event ops).count (.acquire r) = 1 ∧
    ((∃! i, c.Holds held ops i r.origin) ∧ (c.log event ops).count (.release r) = 0 ∨
      (∀ i, ¬c.Holds held ops i r.origin) ∧ (c.log event ops).count (.release r) = 1)
  released : ∀ op r, .release r ∈ c.events event (c.after ops) op →
    c.Holds held ops op.target r.origin ∨ .acquire r ∈ c.events event (c.after ops) op
  used : ∀ i input, ∀ call ∈ (c.step (c.after ops) (.use i input)).1.calls,
    ∃ r, event call = some (.use r) ∧ c.Holds held ops i r.origin ∧
      ∀ k ≤ r.level, IsOpen (c.log event ops) ⟨r.origin, k⟩
  empty : ∀ i o input, (c.after ops).at? i = some o → held o = none →
    c.step (c.after ops) (.use i input) = ({ answer := some (notOpen input) }, c.after ops)
  moved : ∀ pre op mid j, ops = pre ++ op :: mid → MovesFrom (c.after pre) op j →
    (∀ op' ∈ mid, ¬op'.Writes j) → ∃ o, (c.after ops).at? j = some o ∧ held o = none

/-- After a run, what was opened by a call `opens n` was opened once, and has been closed once by a
    call `closes n` unless an object holds it, which is then the only one. -/
def ClosedOnce (ops : List (ObjectOp ι α β)) [DecidableEq C] (opens closes : ℕ → C) : Prop :=
  ∀ n, opens n ∈ c.calls ops → (c.calls ops).count (opens n) = 1 ∧
    ((∃! i, c.Holds held ops i n) ∧ (c.calls ops).count (closes n) = 0 ∨
      (∀ i, ¬c.Holds held ops i n) ∧ (c.calls ops).count (closes n) = 1)

/-- What the members have to do: `held` is what a valid object holds. -/
structure Owns (depth : ℕ) (succeeds : α → Bool) (Valid : O → Prop) (notOpen : β → γ) : Prop where
  construct_ok : ∀ n input o, (c.construct n input).1 = .ok o →
    succeeds input = true ∧ Valid o ∧ held o = some n
  construct_error : ∀ n input e, (c.construct n input).1 = .error e → succeeds input = false
  construct_events : ∀ n input,
    Constructs depth n (succeeds input) ((c.construct n input).2.filterMap event)
  moveConstruct : ∀ o, Valid o → Valid (c.moveConstruct o).1 ∧ Valid (c.moveConstruct o).2 ∧
    held (c.moveConstruct o).1 = held o ∧ held (c.moveConstruct o).2 = none
  selfAssign : ∀ o, c.moveAssign true o o = ((o, o), [])
  moveAssign : ∀ o other, Valid o → Valid other →
    Valid (c.moveAssign false o other).1.1 ∧ Valid (c.moveAssign false o other).1.2 ∧
      held (c.moveAssign false o other).1.1 = held other ∧
      held (c.moveAssign false o other).1.2 = none ∧
      GivesUp depth (held o) ((c.moveAssign false o other).2.filterMap event)
  use : ∀ o input, Valid o → ∀ call ∈ (c.use o input).2, ∃ n level, held o = some n ∧
    level < depth ∧ event call = some (.use ⟨n, level⟩)
  use_empty : ∀ o input, Valid o → held o = none → (c.use o input).1 = notOpen input
  destroy : ∀ o, Valid o → GivesUp depth (held o) ((c.destroy o).filterMap event)

variable {c event held} {depth : ℕ} {succeeds : α → Bool} {Valid : O → Prop} {notOpen : β → γ}
  {s : Objects ι O} {i j : ι} {o : O}

/-! ### The objects refine the ownership -/

omit [DecidableEq ι] in
theorem holds_eq_none : (s.ownership held).holds i = none ↔ s.at? i = none :=
  Option.map_eq_none_iff

omit [DecidableEq ι] in
/-- What the object at a place holds. -/
theorem holds_of_eq_some (hi : s.at? i = some o) : (s.ownership held).holds i = some (held o) :=
  Option.map_eq_some_iff.2 ⟨o, hi, rfl⟩

/-- Objects that are moved hand over what they hold. -/
theorem ownership_move {other o' other' : O} (hj : s.at? j = some other) (ho : held o' = held other)
    (hother : held other' = none) (i : ι) :
    Objects.ownership held { s with
      at? := Function.update (Function.update s.at? i (some o')) j (some other') } =
      (s.ownership held).move i j := by
  rw [Ownership.move, holds_of_eq_some hj, Objects.ownership]
  dsimp only
  rw [Function.comp_update, Function.comp_update, Option.map_some, Option.map_some, ho, hother]
  rfl

/-- On valid objects, an operation does to the ownership what it says, does to the resources what
    is permitted, and leaves valid objects. -/
structure Refines (c : MoveClass O α β γ ε C) (event : C → Option ResourceEvent)
    (held : O → Option ℕ) (depth : ℕ) (succeeds : α → Bool) (Valid : O → Prop) (s : Objects ι O)
    (op : ObjectOp ι α β) : Prop where
  ownership : (c.step s op).2.ownership held =
    (Ownership.step succeeds (s.ownership held) op).2
  permits : Permits depth succeeds (s.ownership held) op (c.events event s op)
  valid : ∀ i o, (c.step s op).2.at? i = some o → Valid o

/-- A place that is written to has a valid object if the new one is valid. -/
theorem valid_update {f : ι → Option O} (hf : ∀ i o, f i = some o → Valid o) (i : ι) {x : Option O}
    (hx : ∀ o, x = some o → Valid o) (j : ι) (o : O) (hj : Function.update f i x j = some o) :
    Valid o := by
  by_cases heq : j = i
  · subst heq
    rw [Function.update_self] at hj
    exact hx o hj
  · rw [Function.update_of_ne heq] at hj
    exact hf j o hj

theorem valid_some (ho : Valid o) (o' : O) (heq : some o = some o') : Valid o' :=
  Option.some.inj heq ▸ ho

/-- An operation refines the ownership if what it gives does. -/
theorem Refines.of_step {op : ObjectOp ι α β} {effect : Effect ε γ C} {s' : Objects ι O}
    (hstep : c.step s op = (effect, s'))
    (hown : s'.ownership held = (Ownership.step succeeds (s.ownership held) op).2)
    (hpermits : Permits depth succeeds (s.ownership held) op (effect.calls.filterMap event))
    (hvalid : ∀ i o, s'.at? i = some o → Valid o) :
    Refines c event held depth succeeds Valid s op := by
  refine ⟨?_, ?_, ?_⟩
  · rw [hstep, hown]
  · rw [events, hstep]
    exact hpermits
  · rw [hstep]
    exact hvalid

namespace Owns

theorem refines_construct (h : c.Owns event held depth succeeds Valid notOpen)
    (hs : ∀ i o, s.at? i = some o → Valid o) (i : ι) (input : α) :
    Refines c event held depth succeeds Valid s (.construct i input) := by
  rcases hi : s.at? i with _ | o
  · have hnone : (s.ownership held).holds i = none := holds_eq_none.2 hi
    have hevents := h.construct_events s.next input
    rcases hc : c.construct s.next input with ⟨e | o, calls⟩
    · have hfails := h.construct_error s.next input e (by rw [hc])
      have hstep : c.step s (.construct i input) =
          ({ threw := some e, calls }, { s with next := s.next + 1 }) := by
        rw [step, hi]
        dsimp only
        rw [hc]
      rw [hc] at hevents
      refine .of_step hstep ?_ ?_ hs
      · rw [Ownership.step, if_pos hnone, hfails]
        rfl
      · rw [Permits, if_pos hnone]
        exact hevents
    · obtain ⟨hsucceeds, hvalid, hheld⟩ := h.construct_ok s.next input o (by rw [hc])
      have hstep : c.step s (.construct i input) =
          ({ calls }, ⟨Function.update s.at? i (some o), s.next + 1⟩) := by
        rw [step, hi]
        dsimp only
        rw [hc]
      rw [hc] at hevents
      refine .of_step hstep ?_ ?_ (valid_update hs i (valid_some hvalid))
      · rw [Ownership.step, if_pos hnone, hsucceeds, Objects.ownership]
        dsimp only
        rw [Function.comp_update, Option.map_some, hheld]
        rfl
      · rw [Permits, if_pos hnone]
        exact hevents
  · -- there is an object in the way
    have hstep : c.step s (.construct i input) = ({}, s) := by rw [step, hi]
    have hsome : (s.ownership held).holds i ≠ none := by
      rw [holds_of_eq_some hi]
      exact Option.some_ne_none _
    refine .of_step hstep ?_ ?_ hs
    · rw [Ownership.step, if_neg hsome]
    · rw [Permits, if_neg hsome]
      exact rfl

theorem refines_moveConstruct (h : c.Owns event held depth succeeds Valid notOpen)
    (hs : ∀ i o, s.at? i = some o → Valid o) (i j : ι) :
    Refines c event held depth succeeds Valid s (.moveConstruct i j) := by
  have hskip (hstep : c.step s (.moveConstruct i j) = ({}, s))
      (hnot : ¬(s.at? i = none ∧ s.at? j ≠ none)) :
      Refines c event held depth succeeds Valid s (.moveConstruct i j) := by
    rw [← @holds_eq_none _ _ held s i, ne_eq, ← @holds_eq_none _ _ held s j] at hnot
    exact .of_step hstep (if_neg hnot).symm rfl hs
  rcases hi : s.at? i with _ | o
  · rcases hj : s.at? j with _ | other
    · refine hskip ?_ fun hij => hij.2 hj
      rw [step, hi, hj]
    · obtain ⟨hvalid, hvalid', hheld, hheld'⟩ := h.moveConstruct other (hs j other hj)
      have hstep : c.step s (.moveConstruct i j) = ({}, { s with
          at? := Function.update (Function.update s.at? i (some (c.moveConstruct other).1)) j
            (some (c.moveConstruct other).2) }) := by
        rw [step, hi, hj]
      have hown : (s.ownership held).holds i = none ∧ (s.ownership held).holds j ≠ none := by
        rw [holds_eq_none, holds_of_eq_some hj]
        exact ⟨hi, Option.some_ne_none _⟩
      refine .of_step hstep ?_ rfl
        (valid_update (valid_update hs i (valid_some hvalid)) j (valid_some hvalid'))
      rw [Ownership.step, if_pos hown]
      exact ownership_move hj hheld hheld' i
  · refine hskip ?_ fun hij => Option.some_ne_none o (hi.symm.trans hij.1)
    rw [step, hi]

theorem refines_moveAssign (h : c.Owns event held depth succeeds Valid notOpen)
    (hs : ∀ i o, s.at? i = some o → Valid o) (i j : ι) :
    Refines c event held depth succeeds Valid s (.moveAssign i j) := by
  have hskip (hstep : c.step s (.moveAssign i j) = ({}, s))
      (hnot : ¬(i ≠ j ∧ s.at? i ≠ none ∧ s.at? j ≠ none)) :
      Refines c event held depth succeeds Valid s (.moveAssign i j) := by
    have hown : ¬(i ≠ j ∧ (s.ownership held).holds i ≠ none ∧
        (s.ownership held).holds j ≠ none) := by
      rwa [ne_eq, ne_eq, ne_eq, holds_eq_none, holds_eq_none]
    refine .of_step hstep (if_neg hown).symm ?_ hs
    rw [Permits, if_neg hown]
    exact rfl
  rcases hi : s.at? i with _ | o
  · refine hskip ?_ fun hij => hij.2.1 hi
    rw [step, hi]
  · rcases hj : s.at? j with _ | other
    · refine hskip ?_ fun hij => hij.2.2 hj
      rw [step, hi, hj]
    · by_cases hij : i = j
      · -- an object that is assigned to itself stays as it is
        subst hij
        obtain rfl : o = other := by rwa [hi, Option.some_inj] at hj
        refine hskip ?_ fun hij => hij.1 rfl
        rw [step, hi]
        dsimp only
        rw [decide_eq_true rfl, h.selfAssign]
        dsimp only
        rw [Function.update_idem, ← hi, Function.update_eq_self]
      · obtain ⟨hvalid, hvalid', hheld, hheld', hevents⟩ :=
          h.moveAssign o other (hs i o hi) (hs j other hj)
        have hstep : c.step s (.moveAssign i j) =
            ({ calls := (c.moveAssign false o other).2 }, { s with
              at? := Function.update
                (Function.update s.at? i (some (c.moveAssign false o other).1.1)) j
                (some (c.moveAssign false o other).1.2) }) := by
          rw [step, hi, hj]
          dsimp only
          rw [decide_eq_false hij]
        have hown : i ≠ j ∧ (s.ownership held).holds i ≠ none ∧
            (s.ownership held).holds j ≠ none := by
          rw [holds_of_eq_some hi, holds_of_eq_some hj]
          exact ⟨hij, Option.some_ne_none _, Option.some_ne_none _⟩
        refine .of_step hstep ?_ ?_
          (valid_update (valid_update hs i (valid_some hvalid)) j (valid_some hvalid'))
        · rw [Ownership.step, if_pos hown]
          exact ownership_move hj hheld hheld' i
        · rw [Permits, if_pos hown, holds_of_eq_some hi]
          exact hevents

theorem refines_use (h : c.Owns event held depth succeeds Valid notOpen)
    (hs : ∀ i o, s.at? i = some o → Valid o) (i : ι) (input : β) :
    Refines c event held depth succeeds Valid s (.use i input) := by
  rcases hi : s.at? i with _ | o
  · have hstep : c.step s (.use i input) = ({}, s) := by rw [step, hi]
    exact .of_step hstep rfl (List.forall_mem_nil _) hs
  · have hstep : c.step s (.use i input) =
        ({ answer := some (c.use o input).1, calls := (c.use o input).2 }, s) := by
      rw [step, hi]
    refine .of_step hstep rfl (fun e he => ?_) hs
    obtain ⟨call, hcall, hevent⟩ := List.mem_filterMap.1 he
    obtain ⟨n, level, hheld, hlevel, huse⟩ := h.use o input (hs i o hi) call hcall
    rw [hevent] at huse
    rw [holds_of_eq_some hi]
    exact ⟨n, level, hheld, hlevel, Option.some.inj huse⟩

theorem refines_destroy (h : c.Owns event held depth succeeds Valid notOpen)
    (hs : ∀ i o, s.at? i = some o → Valid o) (i : ι) :
    Refines c event held depth succeeds Valid s (.destroy i) := by
  rcases hi : s.at? i with _ | o
  · have hnone : (s.ownership held).holds i = none := holds_eq_none.2 hi
    have hstep : c.step s (.destroy i) = ({}, s) := by rw [step, hi]
    refine .of_step hstep ?_ ?_ hs
    · rw [Ownership.step, ← hnone, Function.update_eq_self]
    · rw [Permits, hnone]
      exact rfl
  · have hstep : c.step s (.destroy i) =
        ({ calls := c.destroy o }, { s with at? := Function.update s.at? i none }) := by
      rw [step, hi]
    refine .of_step hstep ?_ ?_
      (valid_update hs i fun o ho => absurd ho.symm (Option.some_ne_none o))
    · rw [Ownership.step, Objects.ownership]
      dsimp only
      rw [Function.comp_update]
      rfl
    · rw [Permits, holds_of_eq_some hi]
      exact h.destroy o (hs i o hi)

theorem refines (h : c.Owns event held depth succeeds Valid notOpen)
    (hs : ∀ i o, s.at? i = some o → Valid o) (op : ObjectOp ι α β) :
    Refines c event held depth succeeds Valid s op :=
  match op with
  | .construct i input => h.refines_construct hs i input
  | .moveConstruct i j => h.refines_moveConstruct hs i j
  | .moveAssign i j => h.refines_moveAssign hs i j
  | .use i input => h.refines_use hs i input
  | .destroy i => h.refines_destroy hs i

end Owns

/-! ### Runs -/

theorem after_concat (ops : List (ObjectOp ι α β)) (op : ObjectOp ι α β) :
    c.after (ops ++ [op]) = (c.step (c.after ops) op).2 := Machine.run_concat _ _ _ _

theorem log_concat (ops : List (ObjectOp ι α β)) (op : ObjectOp ι α β) :
    c.log event (ops ++ [op]) = c.log event ops ++ c.events event (c.after ops) op := by
  rw [log, calls, Machine.emitted_append, Machine.emitted_cons, Machine.emitted_nil,
    List.append_nil, List.filterMap_append]
  rfl

namespace Owns

theorem valid_after (h : c.Owns event held depth succeeds Valid notOpen)
    (ops : List (ObjectOp ι α β)) : ∀ i o, (c.after ops).at? i = some o → Valid o :=
  Machine.run_invariant (I := fun s : Objects ι O => ∀ i o, s.at? i = some o → Valid o)
    (fun _ op hs => (h.refines hs op).valid) ops
    fun _ o ho => absurd ho.symm (Option.some_ne_none o)

/-- The objects after a run hold what the operations say. -/
theorem ownership_after (h : c.Owns event held depth succeeds Valid notOpen)
    (ops : List (ObjectOp ι α β)) :
    (c.after ops).ownership held = (Ownership.step succeeds).run ⟨fun _ => none, 0⟩ ops := by
  induction ops using List.reverseRecOn with
  | nil => rfl
  | append_singleton ops op ih =>
    rw [after_concat, (h.refines (h.valid_after ops) op).ownership, ih, Machine.run_concat]

/-- Open are exactly the resources that an object holds. -/
theorem sound_after (h : c.Owns event held depth succeeds Valid notOpen)
    (ops : List (ObjectOp ι α β)) :
    Sound depth ((c.after ops).ownership held) (c.log event ops) := by
  induction ops using List.reverseRecOn with
  | nil => exact Sound.empty depth
  | append_singleton ops op ih =>
    obtain ⟨hownership, hpermits, -⟩ := h.refines (h.valid_after ops) op
    rw [after_concat, log_concat, hownership]
    exact ih.step hpermits

/-- An object that holds nothing makes no calls. -/
theorem step_use_of_empty (h : c.Owns event held depth succeeds Valid notOpen)
    {ops : List (ObjectOp ι α β)} (hi : (c.after ops).at? i = some o) (hheld : held o = none)
    (input : β) :
    c.step (c.after ops) (.use i input) = ({ answer := some (notOpen input) }, c.after ops) := by
  have hvalid := h.valid_after ops i o hi
  have hcalls : (c.use o input).2 = [] := by
    refine List.eq_nil_iff_forall_not_mem.2 fun call hcall => ?_
    obtain ⟨n, level, hn, -⟩ := h.use o input hvalid call hcall
    rw [hheld] at hn
    cases hn
  rw [step, hi]
  dsimp only
  rw [h.use_empty o input hvalid hheld, hcalls]

/-- An object that has been moved from holds nothing, until another one is put in its place. -/
theorem holds_of_movesFrom (h : c.Owns event held depth succeeds Valid notOpen)
    {pre mid : List (ObjectOp ι α β)} {op : ObjectOp ι α β} (hop : MovesFrom (c.after pre) op j)
    (hmid : ∀ op' ∈ mid, ¬op'.Writes j) :
    ((c.after (pre ++ op :: mid)).ownership held).holds j = some none := by
  induction mid using List.reverseRecOn with
  | nil =>
    obtain ⟨hj, i, hij, hop⟩ := hop
    have hj : ((c.after pre).ownership held).holds j ≠ none := by
      rw [ne_eq, holds_eq_none]
      exact Option.isSome_iff_ne_none.1 hj
    have hmove : (Ownership.move ((c.after pre).ownership held) i j).holds j = some none :=
      Function.update_self _ _ _
    rw [after_concat, (h.refines (h.valid_after pre) op).ownership]
    rcases hop with ⟨rfl, hi⟩ | ⟨rfl, hi⟩
    · rw [Ownership.step, if_pos ⟨holds_eq_none.2 hi, hj⟩]
      exact hmove
    · have hi : ((c.after pre).ownership held).holds i ≠ none := by
        rw [ne_eq, holds_eq_none]
        exact Option.isSome_iff_ne_none.1 hi
      rw [Ownership.step, if_pos ⟨hij, hi, hj⟩]
      exact hmove
  | append_singleton mid op' ih =>
    rw [← List.cons_append, ← List.append_assoc, after_concat,
      (h.refines (h.valid_after _) op').ownership]
    exact holds_step (ih fun op'' hop'' => hmid op'' (List.mem_append_left _ hop''))
      (hmid op' List.mem_concat_self)

/-- Every run is safe. -/
theorem safe (h : c.Owns event held depth succeeds Valid notOpen) (ops : List (ObjectOp ι α β)) :
    c.Safe event held succeeds notOpen ops := by
  have hsound := h.sound_after ops
  refine ⟨h.ownership_after ops, hsound.proper,
    fun r hr => ⟨hsound.proper.count_acquire hr, hsound.released hr⟩,
    fun op r hr => (h.refines (h.valid_after ops) op).permits.released hr, ?_,
    fun i o input hi hheld => h.step_use_of_empty hi hheld input, ?_⟩
  · intro i input call hcall
    rcases hi : (c.after ops).at? i with _ | o
    · rw [step, hi] at hcall
      cases hcall
    · rw [step, hi] at hcall
      obtain ⟨n, level, hheld, hlevel, huse⟩ := h.use o input (h.valid_after ops i o hi) call hcall
      have hholds : c.Holds held ops i n := by rw [Holds, holds_of_eq_some hi, hheld]
      exact ⟨⟨n, level⟩, huse, hholds, fun k hk =>
        (hsound.isOpen_iff _).2 ⟨Nat.lt_of_le_of_lt hk hlevel, i, hholds⟩⟩
  · rintro pre op mid j rfl hop hmid
    exact Option.map_eq_some_iff.1 (h.holds_of_movesFrom hop hmid)

end Owns

/-- An event that one call stands for happens as often as the call is made. -/
theorem count_filterMap [DecidableEq C] {e : ResourceEvent} {call : C}
    (h : ∀ call', event call' = some e ↔ call' = call) (calls : List C) :
    (calls.filterMap event).count e = calls.count call := by
  rw [List.count_filterMap, List.count]
  refine List.countP_congr fun call' _ => ?_
  rw [beq_iff_eq, beq_iff_eq, h call']

/-- What is said of the resources of a level, said of the calls that open and close them. -/
theorem Safe.closedOnce [DecidableEq C] {ops : List (ObjectOp ι α β)}
    (h : c.Safe event held succeeds notOpen ops) (level : ℕ) {opens closes : ℕ → C}
    (hopens : ∀ n call, event call = some (.acquire ⟨n, level⟩) ↔ call = opens n)
    (hcloses : ∀ n call, event call = some (.release ⟨n, level⟩) ↔ call = closes n) :
    c.ClosedOnce held ops opens closes := by
  intro n hn
  have hacquire : .acquire ⟨n, level⟩ ∈ c.log event ops :=
    List.mem_filterMap.2 ⟨opens n, hn, (hopens n _).2 rfl⟩
  have honce := h.once ⟨n, level⟩ hacquire
  rwa [log, count_filterMap (hopens n), count_filterMap (hcloses n)] at honce

/-- What is on top of something has been closed before it is. -/
theorem Safe.mem_of_append {ops : List (ObjectOp ι α β)}
    (h : c.Safe event held succeeds notOpen ops) {pre post : List C} {call : C}
    (hcalls : c.calls ops = pre ++ call :: post) {n k l : ℕ}
    (hcall : event call = some (.release ⟨n, k⟩)) (hkl : k < l)
    (hopened : .acquire ⟨n, l⟩ ∈ pre.filterMap event) :
    .release ⟨n, l⟩ ∈ pre.filterMap event := by
  have hlog : c.log event ops =
      pre.filterMap event ++ .release ⟨n, k⟩ :: post.filterMap event := by
    rw [log, hcalls, List.filterMap_append, List.filterMap_cons_some hcall]
  have hfollows : Follows (pre.filterMap event) (.release ⟨n, k⟩) := h.proper _ _ _ hlog
  by_contra hnot
  exact hfollows.2 l hkl ⟨hopened, hnot⟩

end MoveClass

end IpServer

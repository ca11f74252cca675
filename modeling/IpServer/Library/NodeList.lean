import Mathlib.Data.List.Nodup
import Mathlib.Data.List.Basic

/-!
# Linked lists with stable nodes

A doubly linked list as a container library has it: every node has a handle (an
iterator), which stays with the node while other nodes come and go, and while
the node itself is moved to the front. The handles are numbers that are never
used twice; erasing or moving a handle that no node has is left without effect.
-/

namespace IpServer

/-- A linked list: its nodes, front to back, each a handle and a value, and the
    handle the next node gets. -/
structure NodeList (κ : Type*) where
  nodes : List (ℕ × κ)
  next : ℕ

namespace NodeList

variable {κ : Type*} (l : NodeList κ)

/-- The list without nodes. -/
def empty : NodeList κ := ⟨[], 0⟩

/-- The values, front to back. -/
def values : List κ := l.nodes.map Prod.snd

/-- The value at the back. -/
def back? : Option κ := l.nodes.getLast?.map Prod.snd

/-- A new node at the front, whose handle is `l.next`. -/
def pushFront (k : κ) : NodeList κ := ⟨(l.next, k) :: l.nodes, l.next + 1⟩

/-- Remove the node `h`. -/
def erase (h : ℕ) : NodeList κ := { l with nodes := l.nodes.filter (·.1 ≠ h) }

/-- Remove the node at the back. -/
def popBack : NodeList κ := { l with nodes := l.nodes.dropLast }

/-- Move the node `h` to the front. -/
def spliceFront (h : ℕ) : NodeList κ :=
  { l with nodes := l.nodes.filter (·.1 = h) ++ l.nodes.filter (·.1 ≠ h) }

/-- The handles are distinct, and older than the next one. -/
structure WellFormed : Prop where
  nodup : (l.nodes.map Prod.fst).Nodup
  fresh : ∀ n ∈ l.nodes, n.1 < l.next

variable {l}

@[simp] theorem values_empty : (empty : NodeList κ).values = [] := rfl

@[simp] theorem values_pushFront (k : κ) : (l.pushFront k).values = k :: l.values := rfl

@[simp] theorem mem_pushFront {k : κ} {n : ℕ × κ} :
    n ∈ (l.pushFront k).nodes ↔ n = (l.next, k) ∨ n ∈ l.nodes := List.mem_cons

@[simp] theorem mem_erase {h : ℕ} {n : ℕ × κ} :
    n ∈ (l.erase h).nodes ↔ n ∈ l.nodes ∧ n.1 ≠ h := by
  simp [erase]

@[simp] theorem mem_spliceFront {h : ℕ} {n : ℕ × κ} :
    n ∈ (l.spliceFront h).nodes ↔ n ∈ l.nodes := by
  by_cases hn : n.1 = h <;> simp [spliceFront, hn]

theorem mem_values {k : κ} : k ∈ l.values ↔ ∃ h, (h, k) ∈ l.nodes := by
  simp [values]

theorem sublist_values_erase (h : ℕ) : (l.erase h).values.Sublist l.values :=
  List.filter_sublist.map _

theorem sublist_values_popBack : l.popBack.values.Sublist l.values :=
  (List.dropLast_sublist _).map _

theorem WellFormed.empty : (NodeList.empty : NodeList κ).WellFormed :=
  ⟨List.nodup_nil, fun _ h => absurd h List.not_mem_nil⟩

theorem WellFormed.pushFront (hl : l.WellFormed) (k : κ) : (l.pushFront k).WellFormed where
  nodup := by
    refine List.nodup_cons.2 ⟨fun hmem => ?_, hl.nodup⟩
    obtain ⟨n, hn, hnext⟩ := List.mem_map.1 hmem
    exact Nat.ne_of_lt (hl.fresh n hn) hnext
  fresh n hn := by
    rcases mem_pushFront.1 hn with rfl | hn
    · exact Nat.lt_succ_self _
    · exact Nat.lt_succ_of_lt (hl.fresh n hn)

theorem WellFormed.erase (hl : l.WellFormed) (h : ℕ) : (l.erase h).WellFormed where
  nodup := hl.nodup.sublist (List.filter_sublist.map _)
  fresh n hn := hl.fresh n (mem_erase.1 hn).1

theorem WellFormed.spliceFront (hl : l.WellFormed) (h : ℕ) : (l.spliceFront h).WellFormed where
  nodup := by
    have hperm : (l.spliceFront h).nodes.Perm l.nodes := by
      simpa [NodeList.spliceFront] using List.filter_append_perm (fun n : ℕ × κ => n.1 = h) l.nodes
    exact (hperm.map Prod.fst).nodup_iff.2 hl.nodup
  fresh n hn := hl.fresh n (mem_spliceFront.1 hn)

/-- A handle designates one node. -/
theorem WellFormed.filter_eq (hl : l.WellFormed) {h : ℕ} {k : κ} (hn : (h, k) ∈ l.nodes) :
    l.nodes.filter (·.1 = h) = [(h, k)] := by
  have hnodup := hl.nodup
  generalize l.nodes = ns at hn hnodup
  induction ns with
  | nil => exact absurd hn List.not_mem_nil
  | cons n ns ih =>
    rw [List.map_cons, List.nodup_cons] at hnodup
    rcases List.mem_cons.1 hn with rfl | hn
    · have hrest : ns.filter (·.1 = h) = [] := by
        refine List.filter_eq_nil_iff.2 fun n' hn' heq => hnodup.1 ?_
        exact List.mem_map.2 ⟨n', hn', by simpa using heq⟩
      simp [hrest]
    · have hne : n.1 ≠ h := fun heq => hnodup.1 (heq ▸ List.mem_map.2 ⟨_, hn, rfl⟩)
      rw [List.filter_cons_of_neg (by simpa using hne), ih hn hnodup.2]

theorem WellFormed.values_spliceFront (hl : l.WellFormed) {h : ℕ} {k : κ}
    (hn : (h, k) ∈ l.nodes) : (l.spliceFront h).values = k :: (l.erase h).values := by
  simp only [values, NodeList.spliceFront, hl.filter_eq hn, List.map_append]
  rfl

/-- Popping the back is erasing its node. -/
theorem WellFormed.popBack_eq (hl : l.WellFormed) {ns : List (ℕ × κ)} {n : ℕ × κ}
    (hnodes : l.nodes = ns ++ [n]) : l.popBack = l.erase n.1 := by
  have hnodup := hl.nodup
  rw [hnodes, List.map_append, List.map_singleton, List.nodup_append] at hnodup
  have hne : ∀ n' ∈ ns, n'.1 ≠ n.1 := fun n' hn' =>
    hnodup.2.2 _ (List.mem_map_of_mem hn') _ (List.mem_singleton_self _)
  have hfilter : ns.filter (·.1 ≠ n.1) = ns :=
    List.filter_eq_self.2 fun n' hn' => by simpa using hne n' hn'
  rw [popBack, NodeList.erase, hnodes, List.dropLast_concat, List.filter_append, hfilter]
  simp

end NodeList

end IpServer

import IpServer.Library.LinkedMap

/-!
# Erasing while iterating

A loop over the records of a map, with an iterator that designates one of them or the end. What
the loop visits it erases, together with its node in a list, or else passes: erasing gives the
iterator of the record that followed, as the other records keep their order.

The loop ends after as many turns as there were records, has then visited each of them once
(`ErasePass.exhausted`), and leaves what one pass over the records of the map leaves
(`Dict.sweep`).
-/

namespace IpServer

/-- The state of the loop: the position of the iterator, the map and the list, and the keys of
    the records that have been visited. -/
structure ErasePass (κ β : Type*) where
  position : ℕ
  map : Dict κ β
  list : NodeList κ
  visited : List κ

namespace ErasePass

variable {κ β : Type*}

/-- The iterator is at the first record, or at the end of an empty map. -/
def start (m : Dict κ β) (l : NodeList κ) : ErasePass κ β := ⟨0, m, l, []⟩

/-- The record that the iterator designates, unless it is at the end. -/
def current? (s : ErasePass κ β) : Option (Sigma fun _ : κ => β) := s.map.entries[s.position]?

variable [DecidableEq κ] (it : β → ℕ) (p : β → Bool)

/-- A turn of the loop, which stops at the end. -/
def turn (s : ErasePass κ β) : ErasePass κ β :=
  match s.current? with
  | none => s
  | some e =>
    if p e.2 then
      { s with
        map := s.map.erase e.1
        list := s.list.erase (it e.2)
        visited := s.visited ++ [e.1] }
    else { s with position := s.position + 1, visited := s.visited ++ [e.1] }

/-- Of the records of the map, those of `before` have been visited, and those of `after` not. -/
structure Visited (m : Dict κ β) (l : NodeList κ) (before after : List (Sigma fun _ : κ => β))
    (s : ErasePass κ β) : Prop where
  entries : m.entries = before ++ after
  left : s.map.entries = before.filter (!p ·.2) ++ after
  position : s.position = (before.filter (!p ·.2)).length
  swept : (s.map, s.list) = Dict.sweep it p (m, l) before
  visited : s.visited = before.map Sigma.fst

variable {it p} {m : Dict κ β} {l : NodeList κ} {before after : List (Sigma fun _ : κ => β)}
  {e : Sigma fun _ : κ => β} {s : ErasePass κ β}

theorem Visited.start (m : Dict κ β) (l : NodeList κ) :
    Visited it p m l [] m.entries (.start m l) := ⟨rfl, rfl, rfl, rfl, rfl⟩

/-- The iterator is at the first record that has not been visited. -/
theorem Visited.current? (h : Visited it p m l before after s) : s.current? = after.head? := by
  rw [ErasePass.current?, h.left, h.position, List.getElem?_append_right (le_refl _), Nat.sub_self,
    List.head?_eq_getElem?]

/-- A turn visits one more record. -/
theorem Visited.turn (h : Visited it p m l before (e :: after) s) :
    Visited it p m l (before ++ [e]) after (s.turn it p) := by
  have hcurrent : s.current? = some e := h.current?
  have hentries : m.entries = (before ++ [e]) ++ after := by
    rw [h.entries, List.append_assoc, List.singleton_append]
  have hsweep : Dict.sweep it p (m, l) (before ++ [e]) = Dict.sweep it p (s.map, s.list) [e] := by
    rw [h.swept, Dict.sweep, List.foldl_append]
    rfl
  rw [ErasePass.turn, hcurrent]
  by_cases hp : p e.2
  · -- no other record has the key, so that only this one goes
    have hkey : e.1 ∉ (before.filter (!p ·.2)).keys := by
      have hnodup := m.nodupKeys
      rw [h.entries, List.NodupKeys, List.keys, List.map_append, List.map_cons] at hnodup
      intro hmem
      obtain ⟨e', he', heq⟩ := List.mem_map.1 hmem
      have hbefore := List.mem_map_of_mem (f := Sigma.fst) (List.mem_of_mem_filter he')
      exact (List.nodup_append.1 hnodup).2.2 _ hbefore _ List.mem_cons_self heq
    have hleft : (before ++ [e]).filter (!p ·.2) = before.filter (!p ·.2) := by
      rw [List.filter_append, List.filter_cons_of_neg (by simp [hp]), List.filter_nil,
        List.append_nil]
    simp only [hp, if_true]
    refine ⟨hentries, ?_, ?_, ?_, ?_⟩
    · change s.map.entries.kerase e.1 = _
      rw [h.left, List.kerase_append_right hkey, List.kerase_cons_eq rfl, hleft]
    · rw [hleft]
      exact h.position
    · rw [hsweep, Dict.sweep, List.foldl_cons, List.foldl_nil, if_pos hp]
    · rw [h.visited, List.map_append, List.map_singleton]
  · have hleft : (before ++ [e]).filter (!p ·.2) = before.filter (!p ·.2) ++ [e] := by
      rw [List.filter_append, List.filter_cons_of_pos (by simp [hp]), List.filter_nil]
    simp only [hp, if_false, Bool.false_eq_true]
    refine ⟨hentries, ?_, ?_, ?_, ?_⟩
    · rw [h.left, hleft, List.append_assoc, List.singleton_append]
    · rw [hleft, List.length_append, h.position, List.length_singleton]
    · rw [hsweep, Dict.sweep, List.foldl_cons, List.foldl_nil, if_neg hp]
    · rw [h.visited, List.map_append, List.map_singleton]

/-- So many turns visit so many records, in the order of the map. -/
theorem visited_iterate (it : β → ℕ) (p : β → Bool) (m : Dict κ β) (l : NodeList κ) {n : ℕ}
    (hn : n ≤ m.entries.length) :
    Visited it p m l (m.entries.take n) (m.entries.drop n) ((turn it p)^[n] (start m l)) := by
  induction n with
  | zero => exact Visited.start m l
  | succ n ih =>
    have hlt : n < m.entries.length := hn
    have hdrop := List.drop_eq_getElem_cons hlt
    have hturn := ih hlt.le
    rw [hdrop] at hturn
    rw [Function.iterate_succ_apply', ← List.take_concat_get' _ _ hlt]
    exact hturn.turn

/-- The loop ends after as many turns as there are records, and not before. It has visited each
    record once, and leaves what a pass over all of them leaves. -/
theorem exhausted (it : β → ℕ) (p : β → Bool) (m : Dict κ β) (l : NodeList κ) :
    (∀ n < m.entries.length, ((turn it p)^[n] (start m l)).current? ≠ none) ∧
      let s := (turn it p)^[m.entries.length] (start m l)
      s.current? = none ∧ s.visited = m.keys ∧
        (s.map, s.list) = Dict.sweep it p (m, l) m.entries := by
  refine ⟨fun n hn => ?_, ?_⟩
  · rw [(visited_iterate it p m l hn.le).current?, List.drop_eq_getElem_cons hn, List.head?_cons]
    exact Option.some_ne_none _
  · have hall := visited_iterate it p m l (le_refl _)
    rw [List.take_length, List.drop_length] at hall
    exact ⟨hall.current?, hall.visited, hall.swept⟩

end ErasePass

end IpServer

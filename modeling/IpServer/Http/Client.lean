import IpServer.Http.Effects

/-!
# Who the client is

Behind a proxy, the client is named by a header: by the first element of `X-Forwarded-For`,
to which every proxy appends its own client, or else by `X-Real-IP`; without a proxy it is
the other end of the connection. Header values arrive without blanks around them.

* `getRealClientIp_forwarded`: the name that `X-Forwarded-For` gives is that of its first
  element, whatever follows.
* `identified_iff`: when a request is attributed to a client.
-/

namespace IpServer

/-- The header `X-Forwarded-For` has another value. -/
def Request.withForwarded (req : Request) (value : String) : Request :=
  { req with header := fun key => if key = "X-Forwarded-For" then value else req.header key }

theorem Request.header_withForwarded (req : Request) (value : String) :
    (req.withForwarded value).header "X-Forwarded-For" = value := by
  simp only [withForwarded, if_true]

namespace IPGeoHTTPServer

open Handling

/-- A text without blanks or tabs at its ends. -/
def Delivered (s : String) : Prop := Stripped [' ', '\t'] s.toList

instance (s : String) : Decidable (Delivered s) := inferInstanceAs (Decidable (Stripped _ _))

/-- A request is attributed to a client, whom proxies do not change by appending to
    `X-Forwarded-For`; and it is not rejected for want of one. -/
structure Identified (req : Request) : Prop where
  ne_empty : getRealClientIp req ≠ ""
  delivered : Delivered (getRealClientIp req)
  append_eq : req.header "X-Forwarded-For" ≠ "" → ∀ rest, getRealClientIp
    (req.withForwarded (req.header "X-Forwarded-For" ++ "," ++ rest)) = getRealClientIp req
  status_ne : ∀ lib srv surr limiter w,
    (prepareRequest lib srv surr req).run ⟨corsResponse, limiter, []⟩ = .ok none w →
      w.res.status ≠ 400

/-- The first element of a list. -/
def firstElement (value : String) : List Char := value.toList.takeWhile (· ≠ ',')

variable {req : Request} {value : String}

/-- What follows a comma does not change the first element. -/
theorem firstElement_append (value rest : String) :
    firstElement (value ++ "," ++ rest) = firstElement value := by
  have hlist (cs : List Char) : (cs ++ ',' :: rest.toList).takeWhile (· ≠ ',') =
      cs.takeWhile (· ≠ ',') := by
    induction cs with
    | nil => exact List.takeWhile_cons_of_neg (by decide)
    | cons c cs ih => rw [List.cons_append, List.takeWhile_cons, List.takeWhile_cons, ih]
  rw [firstElement, String.toList_append, String.toList_append, List.append_assoc]
  exact hlist value.toList

theorem firstElement_of_notMem (h : ',' ∉ value.toList) : firstElement value = value.toList :=
  List.takeWhile_eq_self_iff.2 fun _ hc => decide_eq_true (ne_of_mem_of_not_mem hc h)

/-- The client that `X-Forwarded-For` names is its first element, trimmed if that leaves
    anything of it. -/
theorem getRealClientIp_forwarded (hvalue : req.header "X-Forwarded-For" = value) (hne : value ≠ "")
    (h : Delivered value ∨ ',' ∈ value.toList) : getRealClientIp req =
      String.ofList ((trimmed [' ', '\t'] (firstElement value)).getD (firstElement value)) := by
  rw [getRealClientIp, hvalue]
  dsimp only
  rw [if_pos hne]
  split
  · next hcomma =>
    rw [← firstElement]
    cases trimmed [' ', '\t'] (firstElement value) with
    | none => rfl
    | some ip => rfl
  · next hcomma =>
    rw [List.contains_iff_mem] at hcomma
    have hne' : value.toList ≠ [] := fun hnil => hne (String.toList_inj.1 hnil)
    rw [firstElement_of_notMem hcomma, trimmed_of_stripped hne' (h.resolve_right hcomma)]
    exact (String.ofList_toList).symm

/-- A value that starts with anything but a comma names a client. -/
theorem exists_trimmed_firstElement (hne : value ≠ "") (h : Delivered value)
    (hcomma : value.toList.head? ≠ some ',') :
    ∃ ip, trimmed [' ', '\t'] (firstElement value) = some ip := by
  have hne' : value.toList ≠ [] := fun hnil => hne (String.toList_inj.1 hnil)
  obtain ⟨c, cs, hvalue⟩ := List.exists_cons_of_ne_nil hne'
  have hne : c ≠ ',' := by
    rintro rfl
    exact hcomma (hvalue ▸ rfl)
  rw [Delivered, hvalue] at h
  have hc : ¬[' ', '\t'].contains c = true := fun hmem => h.1 c rfl (List.contains_iff_mem.1 hmem)
  rw [firstElement, hvalue, List.takeWhile_cons, if_pos (decide_eq_true hne), trimmed,
    List.dropWhile_cons_of_neg hc]
  exact ⟨_, rfl⟩

/-- A request with blanks around no value is attributed to a client if and only if
    `X-Forwarded-For` does not start with a comma and, without either header, there are no blanks
    around the address of the connection. -/
theorem identified_iff (hremote : req.remoteAddr ≠ "")
    (hforwarded : Delivered (req.header "X-Forwarded-For"))
    (hreal : Delivered (req.header "X-Real-IP")) :
    Identified req ↔ (req.header "X-Forwarded-For").toList.head? ≠ some ',' ∧
      (req.header "X-Forwarded-For" = "" → req.header "X-Real-IP" = "" →
        Delivered req.remoteAddr) := by
  -- a known client is not rejected with 400, only for its key or the limit
  have hstatus (hip : getRealClientIp req ≠ "") (lib srv surr limiter w)
      (hrun : (prepareRequest lib srv surr req).run ⟨corsResponse, limiter, []⟩ = .ok none w) :
      w.res.status ≠ 400 := by
    obtain ⟨clientIp, w', hrun', hprepared⟩ := @prepareRequest_cases lib srv surr req
      ⟨corsResponse, limiter, []⟩
    obtain ⟨rfl, rfl⟩ := EStateM.Result.ok.inj (hrun'.symm.trans hrun)
    cases hprepared with
    | unauthorized hauth hkey hstatus => exact fun h => absurd (hstatus.symm.trans h) (by decide)
    | unknown hkey hip' hstatus => exact absurd hip' hip
    | limited hkey hip' hlimiter hdenied hstatus =>
      exact fun h => absurd (hstatus.symm.trans h) (by decide)
  by_cases hnone : req.header "X-Forwarded-For" = ""
  · -- the client is named by the other header, or by the connection
    have hhead : (req.header "X-Forwarded-For").toList.head? ≠ some ',' := by
      rw [hnone]
      decide
    rw [and_iff_right hhead]
    by_cases hnone' : req.header "X-Real-IP" = ""
    · have hip : getRealClientIp req = req.remoteAddr := by
        simp [getRealClientIp, hnone, hnone']
      refine ⟨fun h _ _ => hip ▸ h.delivered, fun h => ?_⟩
      have hne : getRealClientIp req ≠ "" := hip ▸ hremote
      exact ⟨hne, hip ▸ h hnone hnone', fun h => absurd hnone h, hstatus hne⟩
    · have hip : getRealClientIp req = req.header "X-Real-IP" := by
        simp [getRealClientIp, hnone, hnone']
      have hne : getRealClientIp req ≠ "" := hip ▸ hnone'
      exact iff_of_true ⟨hne, hip ▸ hreal, fun h => absurd hnone h, hstatus hne⟩
        fun _ h => absurd h hnone'
  · -- the client is named by the first element
    have hip := getRealClientIp_forwarded rfl hnone (.inl hforwarded)
    rw [and_iff_left fun h => absurd h hnone]
    constructor
    · intro h hhead
      -- the first element is empty, and so is the client
      obtain ⟨cs, hvalue⟩ := List.head?_eq_some_iff.1 hhead
      refine h.ne_empty (hip.trans ?_)
      rw [firstElement, hvalue, List.takeWhile_cons_of_neg (by decide)]
      rfl
    · intro hhead
      obtain ⟨ip, htrimmed⟩ := exists_trimmed_firstElement hnone hforwarded hhead
      obtain ⟨hne, hstripped⟩ := stripped_of_trimmed htrimmed
      have hne' : getRealClientIp req ≠ "" := by
        rw [hip, htrimmed, Option.getD_some]
        exact fun hempty => hne (String.ofList_inj.1 hempty)
      refine ⟨hne', ?_, fun _ rest => ?_, hstatus hne'⟩
      · rw [hip, htrimmed, Option.getD_some, Delivered, String.toList_ofList]
        exact hstripped
      · -- the longer value is a list with the same first element
        have hcomma : ',' ∈ (req.header "X-Forwarded-For" ++ "," ++ rest).toList := by
          rw [String.toList_append, String.toList_append]
          exact List.mem_append_left _ (List.mem_append_right _ List.mem_cons_self)
        have hne'' : req.header "X-Forwarded-For" ++ "," ++ rest ≠ "" := fun hempty => by
          rw [hempty] at hcomma
          cases hcomma
        rw [getRealClientIp_forwarded (req.header_withForwarded _) hne'' (.inr hcomma),
          firstElement_append, ← hip]

/-- A request that came through two proxies. -/
def proxied (forwarded : String) : Request where
  header key := if key = "X-Forwarded-For" then forwarded else ""
  param _ := ""
  body := ""
  remoteAddr := "10.0.0.1"

theorem identified_proxied : Identified (proxied "192.0.2.7 , 10.0.0.2") :=
  (identified_iff (by decide) (by decide) (by decide)).2
    ⟨by decide, fun h => absurd h (by decide)⟩

/-- A list whose first element is empty names no client, although the connection does. -/
theorem not_identified_emptyElement : Delivered ", 10.0.0.2" ∧
    ¬Identified (proxied ", 10.0.0.2") :=
  ⟨by decide, fun h => h.ne_empty (by decide)⟩

end IPGeoHTTPServer

end IpServer

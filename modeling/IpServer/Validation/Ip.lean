import IpServer.Conversions
import IpServer.Validation

/-!
# IP addresses

`isValidIpFormat` hands a text to the resolver as a C string, and looks for a `%` in the
whole text: the resolver does not see what follows a NUL. What the resolver accepts is
taken from its documentation (`Resolver.Documented`): the literals of IPv4 and of IPv6
(`isIpv4`, `isIpv6`), where the latter may be followed by a zone.

* `notMem_of_isIpLiteral`: a literal has neither a NUL nor a `%`.
* `isIpLiteral_iff`: when exactly the literals are accepted, and what is asked of the databases
  is the text itself.
-/

namespace IpServer

/-! ## Literals -/

/-- A number below 256, in decimal, without a zero in front. -/
def isOctet (cs : List Char) : Bool :=
  cs ≠ [] && cs.all Char.isDigit && (cs.length = 1 || cs.head? ≠ some '0') && decimal cs < 256

/-- Four numbers with dots. -/
def isIpv4 (cs : List Char) : Bool :=
  (cs.splitOn '.').length = 4 && (cs.splitOn '.').all isOctet

/-- A 16-bit group. -/
def isHextet (cs : List Char) : Bool := cs ≠ [] && cs.length ≤ 4 && cs.all isHex

/-- How many 16-bit groups the fields between colons stand for; the last two of an address may be
    written as an IPv4 literal. -/
def groupCount (last : Bool) : List (List Char) → Option ℕ
  | [] => some 0
  | field :: fields =>
    if isHextet field then (groupCount last fields).map (· + 1)
    else if last && fields.isEmpty && isIpv4 field then some 2
    else none

/-- The fields between colons. -/
def fields (cs : List Char) : List (List Char) := if cs = [] then [] else cs.splitOn ':'

/-- What stands before and after the first two colons in a row. -/
def atColons : List Char → Option (List Char × List Char)
  | ':' :: ':' :: cs => some ([], cs)
  | c :: cs => (atColons cs).map fun p => (c :: p.1, p.2)
  | [] => none

/-- Eight 16-bit groups, or fewer around two colons. -/
def isIpv6 (cs : List Char) : Bool :=
  match atColons cs with
  | none => groupCount true (fields cs) = some 8
  | some (front, back) =>
    match groupCount false (fields front), groupCount true (fields back) with
    | some m, some n => m + n ≤ 7
    | _, _ => false

/-- A text that is an IP literal, as a whole. -/
def isIpLiteral (ip : String) : Bool := isIpv4 ip.toList || isIpv6 ip.toList

/-- A character that may occur in a literal. -/
def IsAddressChar (c : Char) : Prop := isHex c = true ∨ c = ':' ∨ c = '.'

/-- What the resolver does with a text without NULs: it accepts the literals of IPv4 and those of
    IPv6, of which the latter may be followed by one of the `zones`. -/
structure Resolver.Documented (resolver : Resolver) (zones : Set (List Char)) : Prop where
  inetPton_eq : ∀ s, '\x00' ∉ s.toList → resolver.inetPton s = isIpv4 s.toList
  getaddrinfo_iff : ∀ s, '\x00' ∉ s.toList → (resolver.getaddrinfo s = true ↔
    isIpv6 s.toList = true ∨ ∃ address, ∃ zone ∈ zones, isIpv6 address = true ∧
      s.toList = address ++ '%' :: zone)

example : isIpv4 "192.168.0.01".toList = false := by decide +kernel
example : isIpv6 "::ffff:10.0.0.1".toList = true := by decide +kernel
example : isIpv6 "1::2::3".toList = false := by decide +kernel

theorem mem_intercalate {c sep : Char} {ts : List (List Char)} (h : c ∈ [sep].intercalate ts) :
    c = sep ∨ ∃ t ∈ ts, c ∈ t := by
  induction ts with
  | nil => cases h
  | cons t ts ih =>
    by_cases hts : ts = []
    · subst hts
      exact .inr ⟨t, List.mem_cons_self, by simpa using h⟩
    · rw [List.intercalate_cons_of_ne_nil hts, List.mem_append, List.mem_append] at h
      rcases h with (h | h) | h
      · exact .inr ⟨t, List.mem_cons_self, h⟩
      · exact .inl (List.mem_singleton.1 h)
      · exact (ih h).imp_right fun ⟨u, hu, hc⟩ => ⟨u, List.mem_cons_of_mem _ hu, hc⟩

theorem mem_splitOn {c sep : Char} {cs : List Char} (h : c ∈ cs) :
    c = sep ∨ ∃ t ∈ cs.splitOn sep, c ∈ t := by
  have hjoined : [sep].intercalate (cs.splitOn sep) = cs := List.intercalate_splitOn sep
  rw [← hjoined] at h
  exact mem_intercalate h

theorem isHex_of_isDigit {c : Char} (h : c.isDigit = true) : isHex c = true := by
  rw [isHex, Bool.or_eq_true, Bool.or_eq_true]
  exact .inl (.inl h)

theorem addressChar_of_isIpv4 {cs : List Char} (h : isIpv4 cs = true) :
    ∀ c ∈ cs, IsAddressChar c := by
  intro c hc
  rw [isIpv4, Bool.and_eq_true] at h
  rcases @mem_splitOn c '.' cs hc with rfl | ⟨t, ht, hc⟩
  · exact .inr (.inr rfl)
  · have hoctet : isOctet t = true := List.all_eq_true.1 h.2 t ht
    simp only [isOctet, Bool.and_eq_true] at hoctet
    exact .inl (isHex_of_isDigit (List.all_eq_true.1 hoctet.1.1.2 c hc))

theorem addressChar_of_groupCount {last : Bool} {n : ℕ} {ts : List (List Char)}
    (h : groupCount last ts = some n) : ∀ t ∈ ts, ∀ c ∈ t, IsAddressChar c := by
  induction ts generalizing n with
  | nil => exact List.forall_mem_nil _
  | cons t ts ih =>
    rw [groupCount] at h
    split at h
    · next hhextet =>
      obtain ⟨m, hm, -⟩ := Option.map_eq_some_iff.1 h
      rw [isHextet, Bool.and_eq_true] at hhextet
      exact List.forall_mem_cons.2 ⟨fun c hc => .inl (List.all_eq_true.1 hhextet.2 c hc), ih hm⟩
    split at h
    · next hipv4 =>
      rw [Bool.and_eq_true, Bool.and_eq_true] at hipv4
      obtain rfl := List.isEmpty_iff.1 hipv4.1.2
      exact List.forall_mem_singleton.2 (addressChar_of_isIpv4 hipv4.2)
    · cases h

theorem addressChar_of_fields {last : Bool} {n : ℕ} {cs : List Char}
    (h : groupCount last (fields cs) = some n) : ∀ c ∈ cs, IsAddressChar c := by
  intro c hc
  have hne : cs ≠ [] := List.ne_nil_of_mem hc
  rw [fields, if_neg hne] at h
  rcases @mem_splitOn c ':' cs hc with rfl | ⟨t, ht, hc⟩
  · exact .inr (.inl rfl)
  · exact addressChar_of_groupCount h t ht c hc

theorem eq_of_atColons {cs front back : List Char} (h : atColons cs = some (front, back)) :
    cs = front ++ ':' :: ':' :: back := by
  induction cs using atColons.induct generalizing front with
  | case1 cs =>
    obtain ⟨rfl, rfl⟩ := Prod.mk.inj (Option.some_inj.1 h)
    rfl
  | case2 c cs hne ih =>
    rw [atColons.eq_2 _ _ hne] at h
    obtain ⟨⟨front', back'⟩, hcs, heq⟩ := Option.map_eq_some_iff.1 h
    obtain ⟨rfl, rfl⟩ := Prod.mk.inj heq
    rw [ih hcs, List.cons_append]
  | case3 => cases h

theorem addressChar_of_isIpv6 {cs : List Char} (h : isIpv6 cs = true) :
    ∀ c ∈ cs, IsAddressChar c := by
  rw [isIpv6] at h
  split at h
  · exact addressChar_of_fields (of_decide_eq_true h)
  · next front back hcolons =>
    split at h
    · next m n hfront hback =>
      rw [eq_of_atColons hcolons]
      have hcolon : IsAddressChar ':' := .inr (.inl rfl)
      exact List.forall_mem_append.2 ⟨addressChar_of_fields hfront, List.forall_mem_cons.2
        ⟨hcolon, List.forall_mem_cons.2 ⟨hcolon, addressChar_of_fields hback⟩⟩⟩
    · cases h

/-- What may not occur in a literal. -/
theorem notMem_of_addressChar {cs : List Char} (h : ∀ c ∈ cs, IsAddressChar c) :
    '\x00' ∉ cs ∧ '%' ∉ cs := by
  refine ⟨fun hc => ?_, fun hc => ?_⟩
  · rcases h _ hc with hc | hc | hc
    · exact absurd hc (by decide)
    · exact absurd hc (by decide)
    · exact absurd hc (by decide)
  · rcases h _ hc with hc | hc | hc
    · exact absurd hc (by decide)
    · exact absurd hc (by decide)
    · exact absurd hc (by decide)

/-- A literal has neither a NUL nor a `%`. -/
theorem notMem_of_isIpLiteral {ip : String} (h : isIpLiteral ip = true) :
    '\x00' ∉ ip.toList ∧ '%' ∉ ip.toList := by
  rw [isIpLiteral, Bool.or_eq_true] at h
  rcases h with h | h
  · exact notMem_of_addressChar (addressChar_of_isIpv4 h)
  · exact notMem_of_addressChar (addressChar_of_isIpv6 h)

/-! ## What is accepted -/

theorem notMem_cStr (s : String) : '\x00' ∉ (cStr s).toList := by
  rw [cStr, String.toList_ofList]
  exact fun h => absurd (List.mem_takeWhile_imp h) (by decide)

/-- A text without NULs is passed on as a whole. -/
theorem cStr_eq_self {s : String} (h : '\x00' ∉ s.toList) : cStr s = s := by
  rw [cStr, List.takeWhile_eq_self_iff.2 fun c hc => decide_eq_true (ne_of_mem_of_not_mem hc h),
    String.ofList_toList]

theorem mem_of_mem_cStr {s : String} {c : Char} (h : c ∈ (cStr s).toList) : c ∈ s.toList := by
  rw [cStr, String.toList_ofList] at h
  exact (List.takeWhile_sublist _).subset h

/-- A text that the resolver takes for a literal because it sees only its start. -/
def Truncated (ip : String) : Prop :=
  '\x00' ∈ ip.toList ∧
    (isIpv4 (cStr ip).toList = true ∨ '%' ∉ ip.toList ∧ isIpv6 (cStr ip).toList = true)

variable {resolver : Resolver} {zones : Set (List Char)}

/-- What is accepted: a text that starts with an IPv4 literal, or is without a `%` and starts with
    an IPv6 literal, and then ends or goes on with a NUL. -/
theorem isValidIpFormat_eq_true (hresolver : resolver.Documented zones) (ip : String) :
    isValidIpFormat resolver ip = true ↔ isIpv4 (cStr ip).toList = true ∨
      '%' ∉ ip.toList ∧ isIpv6 (cStr ip).toList = true := by
  have hnul := notMem_cStr ip
  rw [isValidIpFormat, hresolver.inetPton_eq _ hnul]
  split
  · next hipv4 => exact iff_of_true rfl (.inl hipv4)
  · next hipv4 =>
    rw [or_iff_right hipv4]
    split
    · next hreject =>
      refine iff_of_false Bool.false_ne_true ?_
      rintro ⟨hpercent, hipv6⟩
      rw [Bool.or_eq_true, decide_eq_true_eq, List.contains_iff_mem] at hreject
      -- nothing is no literal
      rcases hreject with rfl | hmem
      · exact absurd hipv6 (by decide +kernel)
      · exact hpercent hmem
    · next hpass =>
      rw [Bool.or_eq_true, decide_eq_true_eq, List.contains_iff_mem, not_or] at hpass
      rw [hresolver.getaddrinfo_iff _ hnul, and_iff_right hpass.2]
      refine or_iff_left ?_
      -- a zone starts with a `%`, and the text has none
      rintro ⟨address, zone, -, -, heq⟩
      refine hpass.2 (mem_of_mem_cStr ?_)
      rw [heq]
      exact List.mem_append_right _ List.mem_cons_self

/-- The literals are accepted, and nothing else is, if and only if the text is not one that is
    truncated to a literal; the databases are then asked for the text itself. So two texts of
    this kind that are accepted are never the same to the databases. -/
theorem isIpLiteral_iff (hresolver : resolver.Documented zones) (ip : String) :
    ((isValidIpFormat resolver ip = true ↔ isIpLiteral ip = true) ↔ ¬Truncated ip) ∧
    (isValidIpFormat resolver ip = true → ¬Truncated ip →
      cStr ip = ip ∧ ∀ ip', isValidIpFormat resolver ip' = true → ¬Truncated ip' →
        cStr ip = cStr ip' → ip = ip') := by
  have hwhole {ip : String} (h : isValidIpFormat resolver ip = true) (hnot : ¬Truncated ip) :
      cStr ip = ip := by
    refine cStr_eq_self fun hnul => hnot ⟨hnul, ?_⟩
    exact (isValidIpFormat_eq_true hresolver ip).1 h
  refine ⟨⟨fun hiff htruncated => ?_, fun hnot => ⟨fun h => ?_, fun h => ?_⟩⟩, fun h hnot => ?_⟩
  · -- a truncated text is accepted, but a literal has no NUL
    have hvalid := (isValidIpFormat_eq_true hresolver ip).2 htruncated.2
    exact (notMem_of_isIpLiteral (hiff.1 hvalid)).1 htruncated.1
  · have hliteral := (isValidIpFormat_eq_true hresolver ip).1 h
    rw [hwhole h hnot] at hliteral
    rw [isIpLiteral, Bool.or_eq_true]
    exact hliteral.imp_right And.right
  · obtain ⟨hnul, hpercent⟩ := notMem_of_isIpLiteral h
    rw [isIpLiteral, Bool.or_eq_true] at h
    rw [isValidIpFormat_eq_true hresolver, cStr_eq_self hnul]
    exact h.imp_right fun h => ⟨hpercent, h⟩
  · refine ⟨hwhole h hnot, fun ip' h' hnot' heq => ?_⟩
    rwa [hwhole h hnot, hwhole h' hnot'] at heq

/-- A resolver that accepts any zone. -/
def Resolver.literals : Resolver where
  inetPton s := isIpv4 s.toList
  getaddrinfo s := isIpv6 (s.toList.takeWhile (· ≠ '%'))

theorem documented_literals : Resolver.literals.Documented Set.univ := by
  have htake {cs : List Char} (h : '%' ∉ cs) : cs.takeWhile (· ≠ '%') = cs :=
    List.takeWhile_eq_self_iff.2 fun c hc => decide_eq_true (ne_of_mem_of_not_mem hc h)
  refine ⟨fun _ _ => rfl, fun s _ => ?_⟩
  rw [Resolver.literals]
  dsimp only
  constructor
  · intro h
    by_cases hpercent : '%' ∈ s.toList
    · -- the zone is what follows the first `%`
      have hne : s.toList.dropWhile (· ≠ '%') ≠ [] := fun hnil =>
        absurd (List.dropWhile_eq_nil_iff.1 hnil _ hpercent) (by decide)
      obtain ⟨c, zone, hdrop⟩ := List.exists_cons_of_ne_nil hne
      have hc := List.head_dropWhile_not (fun c => decide (c ≠ '%')) hne
      simp only [hdrop, List.head_cons, decide_eq_false_iff_not, not_not] at hc
      subst hc
      refine .inr ⟨_, zone, trivial, h, ?_⟩
      rw [← hdrop, List.takeWhile_append_dropWhile]
    · rw [htake hpercent] at h
      exact .inl h
  · rintro (h | ⟨address, zone, -, h, heq⟩)
    · rw [htake (notMem_of_addressChar (addressChar_of_isIpv6 h)).2]
      exact h
    · have hpercent := (notMem_of_addressChar (addressChar_of_isIpv6 h)).2
      rw [heq, List.takeWhile_append_of_pos fun c hc =>
        decide_eq_true (ne_of_mem_of_not_mem hc hpercent), List.takeWhile_cons_of_neg (by decide),
        List.append_nil]
      exact h

theorem isIpLiteral_iff_zone : isValidIpFormat .literals "fe80::1%eth0" = true ↔
    isIpLiteral "fe80::1%eth0" = true :=
  (isIpLiteral_iff documented_literals "fe80::1%eth0").1.2 fun h => absurd h.1 (by decide)

/-- An address followed by a NUL and anything else is accepted. -/
theorem not_isIpLiteral_nul : ¬(isValidIpFormat .literals "10.0.0.1\x00<x>" = true ↔
    isIpLiteral "10.0.0.1\x00<x>" = true) := by
  decide +kernel

end IpServer

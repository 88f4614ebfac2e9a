import RtaTool.Lib.Decimal
import RtaTool.Lib.ListSearch
import RtaTool.Trace.Trace

/-!
# Which requests the remote interface answers

`ApiPolicy.cpp`, the five controls that run before a request is routed. The first of them that
matters is the allowlist of the `Host` header: it is split at the first `]:` if it starts with a
bracket and at the last colon otherwise, the port must be the bound one, and the name one of three.

The port is read by `std::from_chars`, which takes a minus sign: `-0` is a text of the port zero. No
text with a sign is one of a port that is bound.

## Main definitions

* `hostIsAllowed`, `bearerAccepted`, `decidePreRoutingRefusal`
* `AllowedName`, `PortToken` -- what the parts of an accepted header are

## Main results

* `hostIsAllowed_iff` -- exactly the headers that are accepted
* `bearerAccepted_iff` -- exactly the credentials that are
* `preRouting_sound` -- **Headline.** What gets past the controls
-/

namespace RtaTool

namespace Api

open ListSearch

/-! ### The `Host` header -/

/-- `lowerAscii`. -/
def lowerAscii (c : UInt8) : UInt8 := if 65 ≤ c ∧ c ≤ 90 then c - 65 + 97 else c

/-- `equalsAsciiCaseInsensitive`. -/
def equalsAsciiCaseInsensitive (a b : Bytes) : Bool :=
  if a.length ≠ b.length then false
  else (a.zip b).all fun c => lowerAscii c.1 = lowerAscii c.2

/-- `std::from_chars` at `int`: what it read and what it left, `none` for an error. -/
def fromCharsInt (s : Bytes) : Option (ℤ × Bytes) :=
  match readDecimalInt s with
  | none => none
  | some (x, rest) => if -2 ^ 31 ≤ x ∧ x < 2 ^ 31 then some (x, rest) else none

/-- `portEquals`. -/
def portEquals (token : Bytes) (expected : Int32) : Bool :=
  match fromCharsInt token with
  | none => false
  | some (parsed, rest) => rest.isEmpty && parsed == expected.toInt

/-- `kAllowed`. -/
def kAllowed : List Bytes := [bytes "127.0.0.1", bytes "localhost", bytes "[::1]"]

/-- The name and the port of a header, `none` where there is no place to split it. -/
def splitHost (host : Bytes) : Option (Bytes × Bytes) :=
  if host.head? = some 91 then
    (findFirst [93, 58] host).map fun close => (host.take (close + 1), host.drop (close + 2))
  else
    (findLast 58 host).map fun colon => (host.take colon, host.drop (colon + 1))

/-- `hostIsAllowed`. -/
def hostIsAllowed (host : Bytes) (port : Int32) : Bool :=
  match splitHost host with
  | none => false
  | some (name, portToken) =>
    if !portEquals portToken port then false
    else kAllowed.any fun allowed => equalsAsciiCaseInsensitive name allowed

/-! ### The other controls -/

/-- `Method`. -/
inductive Method
  | get
  | head
  | options
  | other
  deriving DecidableEq

/-- `methodOf`. -/
def methodOf (verb : Bytes) : Method :=
  if verb = bytes "GET" then .get
  else if verb = bytes "HEAD" then .head
  else if verb = bytes "OPTIONS" then .options
  else .other

/-- `methodIsAllowed`. -/
def methodIsAllowed (m : Method) : Bool := m = .get || m = .head || m = .options

/-- `ApiSettings`. -/
structure ApiSettings where
  token : Bytes := []
  maxRequestBodyBytes : ℤ := 8192

/-- `kScheme`. -/
def kScheme : Bytes := bytes "Bearer "

/-- `bearerAccepted`. -/
def bearerAccepted (authorizationHeader : Bytes) (settings : ApiSettings) : Bool :=
  if settings.token = [] then true
  else if authorizationHeader.length ≤ kScheme.length then false
  else if !equalsAsciiCaseInsensitive (authorizationHeader.take kScheme.length) kScheme then false
  else authorizationHeader.drop kScheme.length = settings.token

/-- `bodyIsAcceptable`. -/
def bodyIsAcceptable (bodyBytes : ℤ) (settings : ApiSettings) : Bool :=
  0 ≤ bodyBytes && bodyBytes ≤ settings.maxRequestBodyBytes

/-- `PreRoutingRefusal`. -/
inductive PreRoutingRefusal
  | none
  | multipleHostHeaders
  | hostNotAllowed
  | methodNotAllowed
  | unauthorized
  | bodyTooLarge
  deriving DecidableEq

/-- `PreRoutingInputs`. -/
structure PreRoutingInputs where
  hostHeaderCount : ℤ := 0
  hostHeaderValue : Bytes := []
  boundPort : Int32 := -1
  method : Method := .other
  authorizationHeader : Bytes := []
  declaredBodyBytes : ℤ := 0

/-- `decidePreRoutingRefusal`. -/
def decidePreRoutingRefusal (input : PreRoutingInputs) (settings : ApiSettings) :
    PreRoutingRefusal :=
  if 1 < input.hostHeaderCount then .multipleHostHeaders
  else if !hostIsAllowed input.hostHeaderValue input.boundPort then .hostNotAllowed
  else if !methodIsAllowed input.method then .methodNotAllowed
  else if !bearerAccepted input.authorizationHeader settings then .unauthorized
  else if !bodyIsAcceptable input.declaredBodyBytes settings then .bodyTooLarge
  else .none

/-! ### The parts of an accepted header -/

/-- The names that are this host's. -/
def AllowedName (name : Bytes) : Prop :=
  name = bytes "127.0.0.1" ∨ name.map lowerAscii = bytes "localhost" ∨ name = bytes "[::1]"

/-- A row of digits with its value. -/
def Digits (ds : Bytes) (value : ℕ) : Prop :=
  ds ≠ [] ∧ (∀ c ∈ ds, isDigit c = true) ∧ decimalValue ds = value

/-- The texts of an integer that `std::from_chars` reads to their end: digits, maybe with a minus
before them. -/
def PortToken (token : Bytes) (value : ℤ) : Prop :=
  ∃ ds n, Digits ds n ∧ (token = ds ∧ value = n ∨ token = 45 :: ds ∧ value = -n)

theorem portEquals_iff (token : Bytes) (port : Int32) :
    portEquals token port = true ↔ PortToken token port.toInt := by
  have hread : PortToken token port.toInt ↔ readDecimalInt token = some (port.toInt, []) := by
    rw [readDecimalInt_eq_some_nil]
    constructor
    · rintro ⟨ds, n, ⟨hne, hall, rfl⟩, hsign⟩
      exact ⟨ds, hne, hall, hsign⟩
    · rintro ⟨ds, hne, hall, hsign⟩
      exact ⟨ds, _, ⟨hne, hall, rfl⟩, hsign⟩
  have hrange : -2 ^ 31 ≤ port.toInt ∧ port.toInt < 2 ^ 31 := ⟨port.le_toInt, port.toInt_lt⟩
  rw [hread, portEquals, fromCharsInt]
  rcases readDecimalInt token with _ | ⟨x, rest⟩
  · simp
  · dsimp only
    constructor
    · intro h
      split_ifs at h
      obtain ⟨hrest, hx⟩ := Bool.and_eq_true_iff.mp h
      rw [List.isEmpty_iff.mp hrest, beq_iff_eq.mp hx]
    · intro h
      obtain ⟨rfl, rfl⟩ := Prod.mk.inj (Option.some.inj h)
      rw [if_pos hrange, Bool.and_eq_true_iff]
      exact ⟨rfl, beq_self_eq_true _⟩

variable {token : Bytes} {value : ℤ}

theorem PortToken.colon_notMem (h : PortToken token value) :
    58 ∉ token := by
  obtain ⟨ds, n, ⟨-, hall, -⟩, hsign⟩ := h
  have hds : (58 : UInt8) ∉ ds := fun hmem => absurd (hall 58 hmem) (by decide)
  obtain ⟨rfl, -⟩ | ⟨rfl, -⟩ := hsign
  · exact hds
  · rw [List.mem_cons, not_or]
    exact ⟨by decide, hds⟩

/-- A positive number has no sign. -/
theorem portToken_pos_iff (hpos : 0 < value) :
    PortToken token value ↔ ∃ n : ℕ, Digits token n ∧ value = n := by
  constructor
  · rintro ⟨ds, n, hds, ⟨rfl, hvalue⟩ | ⟨-, hvalue⟩⟩
    · exact ⟨n, hds, hvalue⟩
    · omega
  · rintro ⟨n, hds, hvalue⟩
    exact ⟨token, n, hds, .inl ⟨rfl, hvalue⟩⟩

/-! ### Names -/

theorem lowerAscii_cases (c : UInt8) :
    lowerAscii c = c ∨ 97 ≤ lowerAscii c ∧ lowerAscii c ≤ 122 := by
  rw [lowerAscii]
  split_ifs with h
  · right
    obtain ⟨hlow, hhigh⟩ := h
    rw [UInt8.le_iff_toNat_le] at *
    rw [UInt8.le_iff_toNat_le]
    simp only [UInt8.toNat_add, UInt8.toNat_sub, UInt8.reduceToNat] at *
    omega
  · exact .inl rfl

theorem equalsAsciiCaseInsensitive_iff (a b : Bytes) :
    equalsAsciiCaseInsensitive a b = true ↔ a.map lowerAscii = b.map lowerAscii := by
  rw [equalsAsciiCaseInsensitive]
  induction a generalizing b with
  | nil =>
    cases b with
    | nil => simp
    | cons y ys => simp
  | cons x xs ih =>
    cases b with
    | nil => simp
    | cons y ys =>
      have hih := ih ys
      by_cases hlength : xs.length = ys.length
      · simpa [hlength] using fun _ => by simpa [hlength] using hih
      · have hne : xs.map lowerAscii ≠ ys.map lowerAscii := fun heq =>
          hlength (by simpa using congrArg List.length heq)
        simp [hlength, hne]

/-- A text without letters is met by no other text. -/
theorem map_lowerAscii_eq_iff {a b : Bytes}
    (hb : ∀ d ∈ b, lowerAscii d = d ∧ ¬(97 ≤ d ∧ d ≤ 122)) : a.map lowerAscii = b ↔ a = b := by
  constructor
  · rintro rfl
    refine ((List.map_congr_left ?_).trans (List.map_id a)).symm
    intro c hc
    obtain heq | hletter := lowerAscii_cases c
    · exact heq
    · exact absurd hletter (hb _ (List.mem_map_of_mem hc)).2
  · rintro rfl
    exact (List.map_congr_left fun c hc => (hb c hc).1).trans (List.map_id a)

theorem kAllowed_iff (name : Bytes) :
    (kAllowed.any fun allowed => equalsAsciiCaseInsensitive name allowed) = true ↔
      AllowedName name := by
  have hfour : bytes "127.0.0.1" = (bytes "127.0.0.1").map lowerAscii := rfl
  have hname : bytes "localhost" = (bytes "localhost").map lowerAscii := rfl
  have hsix : bytes "[::1]" = (bytes "[::1]").map lowerAscii := rfl
  have hfourIff := map_lowerAscii_eq_iff (a := name) (b := bytes "127.0.0.1") (by decide +kernel)
  have hsixIff := map_lowerAscii_eq_iff (a := name) (b := bytes "[::1]") (by decide +kernel)
  simp only [kAllowed, List.any_cons, List.any_nil, Bool.or_false, Bool.or_eq_true,
    equalsAsciiCaseInsensitive_iff, ← hfour, ← hname, ← hsix, hfourIff, hsixIff]
  rfl

/-! ### Where the header is split -/

theorem eq_of_splitHost {host name token : Bytes} (h : splitHost host = some (name, token)) :
    host = name ++ 58 :: token := by
  rw [splitHost] at h
  split_ifs at h
  · obtain ⟨close, hfind, heq⟩ := Option.map_eq_some_iff.mp h
    obtain ⟨rfl, rfl⟩ := Prod.mk.inj heq
    have hsplit := eq_of_findFirst hfind
    have htake : host.take (close + 1) = host.take close ++ [93] := by
      have hle : close ≤ host.length := by
        by_contra hgt
        have hlength := congrArg List.length hsplit
        simp only [List.length_append, List.length_take, List.length_drop, List.length_cons,
          List.length_nil] at hlength
        omega
      conv_lhs => rw [hsplit]
      rw [List.append_assoc, List.take_append, List.length_take, min_eq_left hle,
        Nat.add_sub_cancel_left, List.take_of_length_le (by simp)]
      rfl
    rw [htake, List.append_assoc]
    simpa using hsplit
  · obtain ⟨colon, hfind, heq⟩ := Option.map_eq_some_iff.mp h
    obtain ⟨rfl, rfl⟩ := Prod.mk.inj heq
    exact (eq_of_findLast hfind).1

theorem splitHost_append {name token : Bytes} (hname : AllowedName name) (htoken : 58 ∉ token) :
    splitHost (name ++ 58 :: token) = some (name, token) := by
  have hlast : ∀ c cs, name = c :: cs → c ≠ 91 →
      splitHost (name ++ 58 :: token) = some (name, token) := by
    intro c cs hcons hc
    have hhead : (name ++ 58 :: token).head? ≠ some 91 := by
      rw [hcons]
      simpa using hc
    rw [splitHost, if_neg hhead, findLast_append name htoken]
    simp
  obtain rfl | hlocal | rfl := hname
  · exact hlast 49 (bytes "27.0.0.1") rfl (by decide)
  · obtain ⟨c, cs, rfl⟩ : ∃ c cs, name = c :: cs := by
      refine List.exists_cons_of_ne_nil ?_
      rintro rfl
      exact absurd hlocal (by decide)
    refine hlast c cs rfl ?_
    rintro rfl
    have hhead := congrArg List.head? hlocal
    rw [List.map_cons, List.head?_cons] at hhead
    exact absurd hhead (by decide)
  · have hbytes : bytes "[::1]" = [91, 58, 58, 49, 93] := rfl
    have hfind : findFirst [93, 58] ([91, 58, 58, 49, 93] ++ 58 :: token) = some 4 := by
      simp only [List.cons_append, List.nil_append]
      rw [findFirst_cons_of_ne _ _ (by decide), findFirst_cons_of_ne _ _ (by decide),
        findFirst_cons_of_ne _ _ (by decide), findFirst_cons_of_ne _ _ (by decide)]
      rw [show findFirst [93, 58] (93 :: 58 :: token) = some 0 from findFirst_prefix [93, 58] token]
      rfl
    rw [hbytes, splitHost, hfind]
    rfl

/-! ### What is accepted -/

/-- The headers that are accepted are those of an allowed name, a colon and a text of the port. -/
theorem hostIsAllowed_iff (host : Bytes) (port : Int32) :
    hostIsAllowed host port = true ↔
      ∃ name token, AllowedName name ∧ host = name ++ 58 :: token ∧
        PortToken token port.toInt := by
  constructor
  · intro h
    rw [hostIsAllowed] at h
    rcases hsplit : splitHost host with _ | ⟨name, token⟩
    · rw [hsplit] at h
      cases h
    · rw [hsplit] at h
      dsimp only at h
      split_ifs at h with hport
      exact ⟨name, token, (kAllowed_iff name).mp h, eq_of_splitHost hsplit,
        (portEquals_iff token port).mp (by simpa using hport)⟩
  · rintro ⟨name, token, hname, rfl, htoken⟩
    rw [hostIsAllowed, splitHost_append hname htoken.colon_notMem]
    dsimp only
    rw [(portEquals_iff token port).mpr htoken, (kAllowed_iff name).mpr hname]
    rfl

/-- Without a token nothing is asked; with one, the header is the scheme in any case and the
token. -/
theorem bearerAccepted_iff (authorizationHeader : Bytes) (settings : ApiSettings) :
    bearerAccepted authorizationHeader settings = true ↔
      settings.token = [] ∨ ∃ scheme, scheme.map lowerAscii = bytes "bearer " ∧
        authorizationHeader = scheme ++ settings.token := by
  have hscheme : kScheme.map lowerAscii = bytes "bearer " := rfl
  have hlength : (bytes "bearer ").length = kScheme.length := rfl
  rw [bearerAccepted]
  constructor
  · intro h
    split_ifs at h with hempty hshort hcase
    · exact .inl hempty
    · refine .inr ⟨authorizationHeader.take kScheme.length, ?_, ?_⟩
      · rw [← hscheme, ← equalsAsciiCaseInsensitive_iff]
        simpa using hcase
      · rw [← of_decide_eq_true h, List.take_append_drop]
  · rintro (hempty | ⟨scheme, hmap, rfl⟩)
    · rw [if_pos hempty]
    · have hsize : scheme.length = kScheme.length := by
        rw [← hlength, ← hmap, List.length_map]
      split_ifs with hempty hshort hcase
      · rfl
      · rw [List.length_append] at hshort
        have : 0 < settings.token.length := List.length_pos_iff.mpr hempty
        omega
      · rw [← hsize, List.take_left] at hcase
        rw [(equalsAsciiCaseInsensitive_iff _ _).mpr (hmap.trans hscheme.symm)] at hcase
        cases hcase
      · rw [← hsize, List.drop_left]
        exact decide_eq_true rfl

theorem methodOf_ne_other_iff (verb : Bytes) :
    methodOf verb ≠ .other ↔ verb = bytes "GET" ∨ verb = bytes "HEAD" ∨ verb = bytes "OPTIONS" := by
  rw [methodOf]
  split_ifs with hget hhead hoptions <;> simp [*]

/-- The controls let a request pass exactly when it passes each. -/
theorem decidePreRoutingRefusal_eq_none_iff (input : PreRoutingInputs) (settings : ApiSettings) :
    decidePreRoutingRefusal input settings = .none ↔
      input.hostHeaderCount ≤ 1 ∧ hostIsAllowed input.hostHeaderValue input.boundPort = true ∧
        input.method ≠ .other ∧ bearerAccepted input.authorizationHeader settings = true ∧
        bodyIsAcceptable input.declaredBodyBytes settings = true := by
  have hmethod : methodIsAllowed input.method = true ↔ input.method ≠ .other := by
    cases input.method <;> decide
  rw [← hmethod, decidePreRoutingRefusal]
  constructor
  · intro h
    split_ifs at h with hcount hhost hallowed hbearer hbody
    simp only [Bool.not_eq_true', Bool.not_eq_false] at hhost hallowed hbearer hbody
    exact ⟨not_lt.mp hcount, hhost, hallowed, hbearer, hbody⟩
  · rintro ⟨hcount, hhost, hallowed, hbearer, hbody⟩
    rw [if_neg (not_lt.mpr hcount), hhost, hallowed, hbearer, hbody]
    rfl

/-- **Headline.** A header is accepted exactly when it is an allowed name, a colon and a text of the
port, which is digits alone for a port that is bound; no other name stands before its last colon. A
request that passes has such a header, an allowed method, and the token where there is one. -/
theorem preRouting_sound :
    (∀ host port, hostIsAllowed host port = true ↔
      ∃ name token, AllowedName name ∧ host = name ++ 58 :: token ∧
        PortToken token port.toInt) ∧
    (∀ host port, 0 < port.toInt → (hostIsAllowed host port = true ↔
      ∃ name token, AllowedName name ∧ host = name ++ 58 :: token ∧
        ∃ n : ℕ, Digits token n ∧ port.toInt = n)) ∧
    (∀ host port name token, hostIsAllowed host port = true → host = name ++ 58 :: token →
      58 ∉ token → AllowedName name) ∧
    ∀ input settings, decidePreRoutingRefusal input settings = .none →
      hostIsAllowed input.hostHeaderValue input.boundPort = true ∧
      (∀ verb, input.method = methodOf verb →
        verb = bytes "GET" ∨ verb = bytes "HEAD" ∨ verb = bytes "OPTIONS") ∧
      (settings.token = [] ∨ ∃ scheme, scheme.map lowerAscii = bytes "bearer " ∧
        input.authorizationHeader = scheme ++ settings.token) := by
  refine ⟨hostIsAllowed_iff, ?_, ?_, ?_⟩
  · intro host port hpos
    simp only [hostIsAllowed_iff, portToken_pos_iff hpos]
  · intro host port name token h hhost hcolon
    obtain ⟨name', token', hname', hhost', htoken'⟩ := (hostIsAllowed_iff host port).mp h
    have hplace := findLast_append name hcolon
    rw [← hhost, hhost', findLast_append name' htoken'.colon_notMem] at hplace
    have hparts : name' = name ∧ 58 :: token' = 58 :: token :=
      List.append_inj (hhost'.symm.trans hhost) (Option.some.inj hplace)
    rw [← hparts.1]
    exact hname'
  · intro input settings h
    obtain ⟨-, hhost, hmethod, hbearer, -⟩ :=
      (decidePreRoutingRefusal_eq_none_iff input settings).mp h
    refine ⟨hhost, ?_, (bearerAccepted_iff _ _).mp hbearer⟩
    intro verb hverb
    rw [hverb] at hmethod
    exact (methodOf_ne_other_iff verb).mp hmethod

/-- A minus and a zero are read as the port zero, and are no row of digits. -/
theorem hostIsAllowed_minusZero :
    hostIsAllowed (bytes "127.0.0.1:-0") 0 = true ∧
      ¬∃ name token, AllowedName name ∧ bytes "127.0.0.1:-0" = name ++ 58 :: token ∧
        ∃ n : ℕ, Digits token n ∧ (0 : Int32).toInt = n := by
  refine ⟨by decide +kernel, ?_⟩
  rintro ⟨name, token, -, hsplit, -, ⟨-, hall, -⟩, -⟩
  have hcolon : (58 : UInt8) ∉ token := fun hmem => absurd (hall 58 hmem) (by decide)
  have hplace : findLast 58 (bytes "127.0.0.1:-0") = some 9 := rfl
  rw [hsplit, findLast_append name hcolon] at hplace
  have htoken : token = (bytes "127.0.0.1:-0").drop 10 := by
    have hten : 10 = (name ++ [58]).length := by
      rw [List.length_append, Option.some.inj hplace]
      rfl
    rw [hsplit, hten, List.append_cons name 58 token, List.drop_left]
  have hminus : (45 : UInt8) ∈ token := by
    rw [htoken]
    decide +kernel
  exact absurd (hall 45 hminus) (by decide)

end Api

end RtaTool

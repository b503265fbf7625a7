import Gpf.Util.Url

/-!
# What the URL parser accepts

Seen without positions, the parser cuts a string at its first `://`, and what follows at its first
slash. What it makes of a colon depends on the side of that slash on which the first one is.
-/

namespace Gpf

namespace Url

open Ranges

/-- The URL of the parts, if there is a host; the names come in lower case. -/
def build (url_s protocol host path query : List Char) (port : ℤ) : Except ParseFault Url :=
  if host = [] then .error (parsingError url_s)
  else .ok { protocol := protocol, host := host, path := path, query := query, port := port }

/-- The parts of a string which begins with the protocol, `://` and the rest: the first colon of the rest
separates the port if it is before the first slash, and is an error if it is behind it. -/
def split (cast : LexicalCast) (url_s protocol rest : List Char) : Except ParseFault Url :=
  let authority := before '/' rest
  let path := before '?' (onward '/' rest)
  let query := (onward '?' (onward '/' rest)).drop 1
  if ':' ∈ authority then do
    let port ← lexicalCast cast ((onward ':' authority).drop 1)
    build url_s (protocol.map Char.toLower) ((before ':' authority).map Char.toLower) path query port
  else if ':' ∈ rest then .error .lengthError
  else build url_s (protocol.map Char.toLower) (authority.map Char.toLower) path query (-1)

/-- No request for a part of the string is above `max_size`. -/
theorem reserve_of_le {first last : ℕ} (h : first ≤ last) : reserve (distance first last) = .ok () := by
  have hnot : ¬distance first last < 0 := by
    unfold distance
    omega
  rw [reserve, throwIf, if_neg (by simpa using hnot)]

/-- A request for a range whose end lies before its start is. -/
theorem reserve_of_lt {first last : ℕ} (h : last < first) :
    reserve (distance first last) = .error .lengthError := by
  have hneg : distance first last < 0 := by
    unfold distance
    omega
  rw [reserve, throwIf, if_pos (by simpa using hneg)]

/-- Copying a part of the string. -/
theorem copy_append (pre mid post : List Char) :
    copy (pre ++ (mid ++ post)) pre.length (pre.length + mid.length) = .ok mid := by
  rw [copy, range_append]
  rfl

/-- Copying a part of the string in lower case. -/
theorem transformToLower_append (pre mid post : List Char) :
    transformToLower (pre ++ (mid ++ post)) pre.length (pre.length + mid.length) =
      .ok (mid.map Char.toLower) := by
  rw [transformToLower, range_append]
  rfl

/-- Only itself is lower-cased to a character which is not a small letter. -/
theorem eq_of_toLower {c d : Char} (hd : d.isLower = false) (h : c.toLower = d) : c = d := by
  unfold Char.toLower at h
  split at h
  · rename_i hupper
    have hval := congrArg (fun c => c.val.toNat) h
    have hlow := hupper.1
    have hhigh := hupper.2
    have hsmall : (decide (d.val ≥ 'a'.val) && decide (d.val ≤ 'z'.val)) = false := hd
    simp only [ge_iff_le, UInt32.le_iff_toNat_le] at hlow hhigh
    simp [UInt32.le_iff_toNat_le] at hval hlow hhigh hsmall
    omega
  · exact h

/-- A character which is not a small letter is in a lower-cased string only if it is in the string. -/
theorem notMem_toLower {s : List Char} {d : Char} (hd : d.isLower = false) (h : d ∉ s) :
    d ∉ s.map Char.toLower := by
  intro hmem
  obtain ⟨c, hc, hlower⟩ := List.mem_map.mp hmem
  exact h (eq_of_toLower hd hlower ▸ hc)

/-- The two checks of a host without a slash leave only the one for the empty host. -/
theorem build_eq {url_s protocol host path query : List Char} {port : ℤ} (hslash : '/' ∉ host) :
    (do
      throwIf (host.length = 0) (parsingError url_s)
      throwIf (host.contains '/') (parsingError url_s)
      pure { protocol := protocol, host := host, path := path, query := query, port := port }) =
      build url_s protocol host path query port := by
  have hcontains : host.contains '/' = false := by simpa using hslash
  unfold build throwIf
  rw [hcontains]
  by_cases hempty : host = []
  · simp [hempty]
  · simp [hempty]

/-- Copying up to the first occurrence of a character. -/
theorem copy_before (pre s : List Char) (c : Char) :
    copy (pre ++ s) pre.length (pre.length + (before c s).length) = .ok (before c s) := by
  have hcopy := copy_append pre (before c s) (onward c s)
  rwa [before_append_onward] at hcopy

/-- Copying what is behind the first occurrence of a character, if there is one. -/
theorem copy_behind (pre s : List Char) (c : Char) :
    (do
      let i ← skipQuestionMark (pre ++ s) (pre.length + (before c s).length)
      copy (pre ++ s) i (pre ++ s).length) = .ok ((onward c s).drop 1) := by
  have hsplit := before_append_onward c s
  rcases onward_cases c s with hend | ⟨rest, hrest⟩
  · rw [hend, List.append_nil] at hsplit
    have hcopy := copy_append (pre ++ s) [] []
    simp only [List.append_nil, List.length_nil, Nat.add_zero] at hcopy
    rw [skipQuestionMark, hsplit, hend, if_neg (not_not.mpr List.length_append.symm), ← List.length_append]
    exact hcopy
  · rw [hrest] at hsplit ⊢
    generalize before c s = front at hsplit
    subst hsplit
    have hne : pre.length + front.length ≠ (pre ++ (front ++ c :: rest)).length := by
      simp only [List.length_append, List.length_cons]
      omega
    have hadvance : advance (pre ++ (front ++ c :: rest)) (pre.length + front.length) 1 =
        some (pre ++ (front ++ [c])).length := by
      simpa [Nat.add_assoc] using advance_append (pre ++ front) [c] rest
    have hlength : (pre ++ (front ++ c :: rest)).length =
        (pre ++ (front ++ [c])).length + rest.length := by
      simp only [List.length_append, List.length_cons, List.length_nil]
      omega
    have hstring : pre ++ (front ++ c :: rest) = pre ++ (front ++ [c]) ++ (rest ++ []) := by simp
    rw [skipQuestionMark, if_pos hne, hadvance, defined, ok_bind, hlength, hstring]
    exact copy_append (pre ++ (front ++ [c])) rest []

/-- The parser from the host on, when it has found the three parts. -/
theorem parseHost_append (pre host mid tail protocol : List Char) (port : ℤ) (hslash : '/' ∉ host) :
    parseHost (pre ++ (host ++ (mid ++ tail))) protocol pre.length (pre.length + host.length)
        (pre.length + host.length + mid.length) port =
      build (pre ++ (host ++ (mid ++ tail))) protocol (host.map Char.toLower) (before '?' tail)
        ((onward '?' tail).drop 1) port := by
  have hpath : pre.length + host.length + mid.length = (pre ++ (host ++ mid)).length := by
    simp only [List.length_append]
    omega
  have hstring : pre ++ (host ++ (mid ++ tail)) = pre ++ (host ++ mid) ++ tail := by
    simp only [List.append_assoc]
  unfold parseHost
  rw [reserve_of_le (Nat.le_add_right _ _), ok_bind, transformToLower_append, ok_bind, hpath, hstring]
  simp only [find_append]
  rw [copy_before, ok_bind, ← bind_assoc, copy_behind, ok_bind]
  exact build_eq (notMem_toLower (by decide) hslash)

/-- The parser at the port, without a colon. -/
theorem parsePort_absent (cast : LexicalCast) (url_s : List Char) (path_i : ℕ) :
    parsePort cast url_s url_s.length path_i = .ok (-1, path_i) := by
  rw [parsePort, if_neg (not_not.mpr rfl)]
  rfl

/-- The parser at the port, with a colon which is not before the first slash. -/
theorem parsePort_behind (cast : LexicalCast) {url_s : List Char} {port_i path_i : ℕ}
    (hport : port_i < url_s.length) (hbehind : path_i ≤ port_i) :
    parsePort cast url_s port_i path_i = .error .lengthError := by
  have hadvance : advance url_s port_i 1 = some (port_i + 1) := if_pos hport
  rw [parsePort, if_pos hport.ne, hadvance, defined, ok_bind, reserve_of_lt (by omega), error_bind]

/-- The parser at the port, with a colon before the first slash. -/
theorem parsePort_append (cast : LexicalCast) (pre portstr tail : List Char) :
    parsePort cast (pre ++ (':' :: portstr ++ tail)) pre.length (pre.length + (portstr.length + 1)) =
      (do
        let port ← lexicalCast cast portstr
        pure (port, pre.length)) := by
  have hne : pre.length ≠ (pre ++ (':' :: portstr ++ tail)).length := by
    simp only [List.length_append, List.length_cons]
    omega
  have hadvance : advance (pre ++ (':' :: portstr ++ tail)) pre.length 1 = some (pre ++ [':']).length := by
    simpa using advance_append pre [':'] (portstr ++ tail)
  have hcopy : copy (pre ++ (':' :: portstr ++ tail)) (pre ++ [':']).length
      (pre.length + (portstr.length + 1)) = .ok portstr := by
    have hmid := copy_append (pre ++ [':']) portstr tail
    have hlength : (pre ++ [':']).length + portstr.length = pre.length + (portstr.length + 1) := by
      simp only [List.length_append, List.length_cons, List.length_nil]
      omega
    rw [hlength] at hmid
    simpa using hmid
  have hle : (pre ++ [':']).length ≤ pre.length + (portstr.length + 1) := by
    simp only [List.length_append, List.length_cons, List.length_nil]
    omega
  rw [parsePort, if_pos hne, hadvance, defined, ok_bind, reserve_of_le hle, ok_bind, hcopy, ok_bind]
  simp

/-- What the parser does behind the protocol: with the port, and with what follows. -/
def parseRest (cast : LexicalCast) (pre protocol rest : List Char) : Except ParseFault Url := do
  let (port, host_end) ← parsePort cast (pre ++ rest) (pre.length + (before ':' rest).length)
    (pre.length + (before '/' rest).length)
  parseHost (pre ++ rest) protocol pre.length host_end (pre.length + (before '/' rest).length) port

/-- The parser up to the port, once the protocol is found. -/
theorem parse_protocol (cast : LexicalCast) {protocol rest : List Char}
    (hfirst : ∀ i < protocol.length, ¬"://".toList <+: (protocol ++ ("://".toList ++ rest)).drop i)
    (hlong : protocol ++ rest ≠ []) :
    parse cast (protocol ++ ("://".toList ++ rest)) =
      parseRest cast (protocol ++ "://".toList) (protocol.map Char.toLower) rest := by
  have hshort : ¬(protocol ++ ("://".toList ++ rest)).length ≤ "://".toList.length := by
    have hpos := List.length_pos_iff.mpr hlong
    simp only [List.length_append] at hpos ⊢
    omega
  have hfound : ¬protocol.length = (protocol ++ ("://".toList ++ rest)).length := by
    have hthree : "://".toList.length = 3 := rfl
    simp only [List.length_append]
    omega
  have hprotocol : transformToLower (protocol ++ ("://".toList ++ rest)) 0 protocol.length =
      .ok (protocol.map Char.toLower) := by
    simpa using transformToLower_append [] protocol ("://".toList ++ rest)
  unfold parse
  simp only [throwIf, hshort, decide_false, Bool.false_eq_true, if_false, ok_bind, search_append hfirst,
    reserve_of_le (Nat.zero_le _), hprotocol, hfound, advance_append, defined]
  rw [← List.append_assoc, ← List.length_append]
  simp only [find_append, parseRest]

/-- A colon before the first slash: the port is behind it, and the host before it. -/
theorem parseRest_of_port (cast : LexicalCast) (pre protocol : List Char) {rest : List Char}
    (hcolon : ':' ∈ before '/' rest) :
    parseRest cast pre protocol rest = (do
      let port ← lexicalCast cast ((onward ':' (before '/' rest)).drop 1)
      build (pre ++ rest) protocol ((before ':' (before '/' rest)).map Char.toLower)
        (before '?' (onward '/' rest)) ((onward '?' (onward '/' rest)).drop 1) port) := by
  have hslash := notMem_before '/' rest
  have hrest := before_append_onward '/' rest
  obtain ⟨portstr, hportstr⟩ := exists_onward hcolon
  have hhost := notMem_before ':' (before '/' rest)
  have hsplit := before_append_onward ':' (before '/' rest)
  rw [hportstr] at hsplit ⊢
  -- from here on the string is the host, the colon, the port and the tail
  generalize before ':' (before '/' rest) = host at hhost hsplit ⊢
  generalize onward '/' rest = tail at hrest ⊢
  have hport : before ':' rest = host := by
    rw [← hrest, ← hsplit, List.append_assoc, before_append hhost, List.cons_append, before_cons_self,
      List.append_nil]
  have hlength : (before '/' rest).length = host.length + (portstr.length + 1) := by
    rw [← hsplit, List.length_append, List.length_cons]
  have hnotSlash : '/' ∉ host := fun hmem => hslash (hsplit ▸ List.mem_append_left _ hmem)
  have hstring : pre ++ rest = pre ++ (host ++ (':' :: portstr ++ tail)) := by
    rw [← hrest, ← hsplit, List.append_assoc]
  have hparsePort : parsePort cast (pre ++ rest) (pre.length + host.length)
      (pre.length + (host.length + (portstr.length + 1))) = (do
        let port ← lexicalCast cast portstr
        pure (port, pre.length + host.length)) := by
    have hparse := parsePort_append cast (pre ++ host) portstr tail
    rwa [List.append_assoc, ← hstring, List.length_append, Nat.add_assoc] at hparse
  rw [parseRest, hport, hlength, hparsePort, hstring]
  simp only [List.drop_succ_cons, List.drop_zero, bind_assoc, pure_bind]
  apply bind_congr
  intro port
  have hparse := parseHost_append pre host (':' :: portstr) tail protocol port hnotSlash
  rwa [List.length_cons, Nat.add_assoc] at hparse

/-- The first colon behind the first slash: the port string would be of negative length. -/
theorem parseRest_of_colon (cast : LexicalCast) (pre protocol : List Char) {rest : List Char}
    (hcolon : ':' ∈ rest) (hauthority : ':' ∉ before '/' rest) :
    parseRest cast pre protocol rest = .error .lengthError := by
  have hport := before_append hauthority (onward '/' rest)
  rw [before_append_onward] at hport
  have hlt : pre.length + (before ':' rest).length < (pre ++ rest).length := by
    have hlt := length_before_lt hcolon
    rw [List.length_append]
    omega
  have hbehind : pre.length + (before '/' rest).length ≤ pre.length + (before ':' rest).length := by
    rw [hport, List.length_append]
    omega
  rw [parseRest, parsePort_behind cast hlt hbehind, error_bind]

/-- No colon: all before the first slash is the host. -/
theorem parseRest_of_notMem (cast : LexicalCast) (pre protocol : List Char) {rest : List Char}
    (hcolon : ':' ∉ rest) :
    parseRest cast pre protocol rest = build (pre ++ rest) protocol ((before '/' rest).map Char.toLower)
      (before '?' (onward '/' rest)) ((onward '?' (onward '/' rest)).drop 1) (-1) := by
  have hparse := parseHost_append pre (before '/' rest) [] (onward '/' rest) protocol (-1)
    (notMem_before '/' rest)
  rw [List.nil_append, before_append_onward, List.length_nil, Nat.add_zero] at hparse
  rw [parseRest, before_of_notMem hcolon, ← List.length_append, parsePort_absent, ok_bind]
  exact hparse

/-- On a string whose first `://` is behind the protocol, the parser makes of the rest what its parts
are. -/
theorem parse_eq_split (cast : LexicalCast) {protocol rest : List Char}
    (hfirst : ∀ i < protocol.length, ¬"://".toList <+: (protocol ++ ("://".toList ++ rest)).drop i)
    (hlong : protocol ++ rest ≠ []) :
    parse cast (protocol ++ ("://".toList ++ rest)) =
      split cast (protocol ++ ("://".toList ++ rest)) protocol rest := by
  rw [parse_protocol cast hfirst hlong, ← List.append_assoc, split]
  by_cases hauthority : ':' ∈ before '/' rest
  · rw [if_pos hauthority, parseRest_of_port cast _ _ hauthority]
  · rw [if_neg hauthority]
    by_cases hcolon : ':' ∈ rest
    · rw [if_pos hcolon, parseRest_of_colon cast _ _ hcolon hauthority]
    · rw [if_neg hcolon, parseRest_of_notMem cast _ _ hcolon]

/-- What there is to a URL which the parser makes of a protocol and the rest. -/
structure Splits (cast : LexicalCast) (protocol rest : List Char) (u : Url) : Prop where
  protocol_eq : u.protocol = protocol.map Char.toLower
  host_eq : u.host = (before ':' (before '/' rest)).map Char.toLower
  host_ne : u.host ≠ []
  path_eq : u.path = before '?' (onward '/' rest)
  query_eq : u.query = (onward '?' (onward '/' rest)).drop 1
  port_eq : if ':' ∈ before '/' rest then
      cast.toInt ((onward ':' (before '/' rest)).drop 1) = some u.port
    else ':' ∉ rest ∧ u.port = -1

/-- A URL is built exactly if there is a host. -/
theorem build_eq_ok {url_s protocol host path query : List Char} {port : ℤ} {u : Url} :
    build url_s protocol host path query port = .ok u ↔
      u.protocol = protocol ∧ u.host = host ∧ host ≠ [] ∧ u.path = path ∧ u.query = query ∧
        u.port = port := by
  unfold build
  by_cases hempty : host = []
  · simp [hempty]
  · rw [if_neg hempty, Except.ok.injEq]
    constructor
    · intro h
      subst h
      exact ⟨rfl, rfl, hempty, rfl, rfl, rfl⟩
    · intro h
      obtain ⟨rfl, rfl, -, rfl, rfl, rfl⟩ := h
      rfl

/-- The parts are those of a URL exactly if they are what they should be. -/
theorem split_eq_ok {cast : LexicalCast} {url_s protocol rest : List Char} {u : Url} :
    split cast url_s protocol rest = .ok u ↔ Splits cast protocol rest u := by
  unfold split
  by_cases hauthority : ':' ∈ before '/' rest
  · rw [if_pos hauthority]
    cases hcast : cast.toInt ((onward ':' (before '/' rest)).drop 1) with
    | none =>
      rw [lexicalCast, hcast, error_bind]
      apply iff_of_false (by simp)
      intro h
      have hport := h.port_eq
      rw [if_pos hauthority, hcast] at hport
      cases hport
    | some port =>
      rw [lexicalCast, hcast, ok_bind, build_eq_ok]
      constructor
      · intro h
        obtain ⟨hprotocol, hhost, hne, hpath, hquery, hport⟩ := h
        exact ⟨hprotocol, hhost, hhost ▸ hne, hpath, hquery, by rw [if_pos hauthority, hcast, hport]⟩
      · intro h
        have hport := h.port_eq
        rw [if_pos hauthority, hcast, Option.some.injEq] at hport
        exact ⟨h.protocol_eq, h.host_eq, h.host_eq ▸ h.host_ne, h.path_eq, h.query_eq, hport.symm⟩
  · have hhost := before_of_notMem hauthority
    rw [if_neg hauthority]
    by_cases hcolon : ':' ∈ rest
    · rw [if_pos hcolon]
      apply iff_of_false (by simp)
      intro h
      have hport := h.port_eq
      rw [if_neg hauthority] at hport
      exact hport.1 hcolon
    · rw [if_neg hcolon, build_eq_ok]
      constructor
      · intro h
        obtain ⟨hprotocol, hhost', hne, hpath, hquery, hport⟩ := h
        exact ⟨hprotocol, by rw [hhost, hhost'], hhost' ▸ hne, hpath, hquery,
          by rw [if_neg hauthority]; exact ⟨hcolon, hport⟩⟩
      · intro h
        have hport := h.port_eq
        have hhost' := h.host_eq
        rw [if_neg hauthority] at hport
        rw [hhost] at hhost'
        exact ⟨h.protocol_eq, hhost', hhost' ▸ h.host_ne, h.path_eq, h.query_eq, hport.2⟩

/-- Cutting a string apart leaves nothing undefined. -/
theorem split_ne_invalidRange {cast : LexicalCast} {url_s protocol rest : List Char} :
    split cast url_s protocol rest ≠ .error .invalidRange := by
  have hbuild {protocol host path query : List Char} {port : ℤ} :
      build url_s protocol host path query port ≠ .error .invalidRange := by
    unfold build
    split <;> simp [parsingError]
  unfold split
  by_cases hauthority : ':' ∈ before '/' rest
  · rw [if_pos hauthority]
    cases hcast : cast.toInt ((onward ':' (before '/' rest)).drop 1) with
    | none =>
      rw [lexicalCast, hcast, error_bind]
      simp
    | some port =>
      rw [lexicalCast, hcast, ok_bind]
      exact hbuild
  · rw [if_neg hauthority]
    by_cases hcolon : ':' ∈ rest
    · rw [if_pos hcolon]
      simp
    · rw [if_neg hcolon]
      exact hbuild

/-- A string which is too short is reported as such. -/
theorem parse_of_short (cast : LexicalCast) {s : List Char} (hshort : s.length ≤ 3) :
    parse cast s = .error (.runtimeError "Url Parser: URL too short!") := by
  have htest : s.length ≤ "://".toList.length := hshort
  simp only [parse, throwIf, htest, decide_true, if_true, error_bind]

/-- A string without a protocol is reported as such. -/
theorem parse_of_absent (cast : LexicalCast) {s : List Char} (hlong : ¬s.length ≤ 3)
    (hsearch : search s "://".toList = s.length) :
    parse cast s = .error (.runtimeError
      ("Url Parser: Could not find protocol string :// in `" ++ String.ofList s ++ "'")) := by
  have htest : ¬s.length ≤ "://".toList.length := hlong
  have hwhole : transformToLower s 0 s.length = .ok (s.map Char.toLower) := by
    simpa using transformToLower_append [] s []
  simp only [parse, throwIf, htest, decide_false, Bool.false_eq_true, if_false, ok_bind, hsearch,
    reserve_of_le (Nat.zero_le _), hwhole, decide_true, if_true, error_bind]

/-- The parser reports a string which is short or has no `://`, and of any other it makes what the parts
around the first `://` are. -/
theorem parse_cases (cast : LexicalCast) (s : List Char) :
    (∃ what, parse cast s = .error (.runtimeError what)) ∨
      ∃ protocol rest, s = protocol ++ ("://".toList ++ rest) ∧
        (∀ i < protocol.length, ¬"://".toList <+: s.drop i) ∧
        parse cast s = split cast s protocol rest := by
  by_cases hshort : s.length ≤ 3
  · exact .inl ⟨_, parse_of_short cast hshort⟩
  · rcases search_cases (by decide : "://".toList ≠ []) s with
      ⟨hend, -⟩ | ⟨protocol, rest, rfl, -, hfirst⟩
    · exact .inl ⟨_, parse_of_absent cast hshort hend⟩
    · have hlong : protocol ++ rest ≠ [] := by
        intro hnil
        have hlength := congrArg List.length hnil
        have hthree : "://".toList.length = 3 := rfl
        simp only [List.length_append, List.length_nil] at hlength hshort
        omega
      exact .inr ⟨protocol, rest, rfl, hfirst, parse_eq_split cast hfirst hlong⟩

/-- What follows a separator, if it is there. -/
def behind (separator : Char) (part : Option (List Char)) : List Char :=
  (part.map (List.cons separator)).getD []

/-- The rest from a separator on is the separator with what follows it, if it is there. -/
theorem onward_eq_behind (separator : Char) (s : List Char) :
    ∃ part, onward separator s = behind separator part ∧
      part.getD [] = (onward separator s).drop 1 ∧ (part = none ↔ separator ∉ s) := by
  by_cases hmem : separator ∈ s
  · obtain ⟨rest, hrest⟩ := exists_onward hmem
    refine ⟨some rest, hrest, ?_, iff_of_false (by simp) (not_not.mpr hmem)⟩
    rw [hrest]
    rfl
  · have hnone := onward_of_notMem hmem
    refine ⟨none, hnone, ?_, iff_of_true rfl hmem⟩
    rw [hnone]
    rfl

/-- The string consists of the parts of the URL, the names as they were written, and the port and the
query each behind its separator or absent. -/
structure Reassembles (cast : LexicalCast) (s : List Char) (u : Url) (p h : List Char)
    (n q : Option (List Char)) : Prop where
  text : s = p ++ "://".toList ++ h ++ behind ':' n ++ u.path ++ behind '?' q
  first : ∀ i < p.length, ¬"://".toList <+: s.drop i
  protocol : p.map Char.toLower = u.protocol
  host : h.map Char.toLower = u.host
  host_ne : u.host ≠ []
  slash : '/' ∉ u.host
  colon : ':' ∉ u.host
  port : ∀ portstr, n = some portstr → cast.toInt portstr = some u.port
  noPort : n = none → u.port = -1
  path : u.path = [] ∨ ∃ rest, u.path = '/' :: rest
  question : '?' ∉ u.path
  query : u.query = q.getD []

/-- The parts of a URL make up its string. -/
theorem Splits.reassembles {cast : LexicalCast} {protocol rest : List Char} {u : Url}
    (h : Splits cast protocol rest u)
    (hfirst : ∀ i < protocol.length, ¬"://".toList <+: (protocol ++ ("://".toList ++ rest)).drop i) :
    ∃ n q, Reassembles cast (protocol ++ ("://".toList ++ rest)) u protocol
      (before ':' (before '/' rest)) n q := by
  obtain ⟨n, hn, hportstr, hcolon⟩ := onward_eq_behind ':' (before '/' rest)
  obtain ⟨q, hq, hquery, -⟩ := onward_eq_behind '?' (onward '/' rest)
  have hauthority := before_append_onward ':' (before '/' rest)
  have htail := before_append_onward '?' (onward '/' rest)
  have hrest := before_append_onward '/' rest
  have hport := h.port_eq
  refine ⟨n, q, ?_, hfirst, h.protocol_eq.symm, h.host_eq.symm, h.host_ne, ?_, ?_, ?_, ?_, ?_, ?_, ?_⟩
  · rw [h.path_eq, ← hn, ← hq]
    simp only [List.append_assoc, List.append_cancel_left_eq]
    rw [htail, ← List.append_assoc, hauthority, hrest]
  · rw [h.host_eq]
    apply notMem_toLower (by decide)
    intro hmem
    exact notMem_before '/' rest (hauthority ▸ List.mem_append_left _ hmem)
  · rw [h.host_eq]
    exact notMem_toLower (by decide) (notMem_before ':' _)
  · intro portstr hsome
    have hmem : ':' ∈ before '/' rest := by
      by_contra hnot
      rw [hcolon.mpr hnot] at hsome
      cases hsome
    rw [if_pos hmem, ← hportstr, hsome] at hport
    exact hport
  · intro hnone
    rw [if_neg (hcolon.mp hnone)] at hport
    exact hport.2
  · rw [h.path_eq]
    rcases onward_cases '/' rest with hend | ⟨tail, htail⟩
    · rw [hend]
      exact .inl rfl
    · have hskip : '?' ∉ ['/'] := by decide
      rw [htail]
      exact .inr ⟨before '?' tail, before_append hskip tail⟩
  · rw [h.path_eq]
    exact notMem_before '?' _
  · rw [h.query_eq, hquery]

/-- Whatever the string: the parser stays inside it and never takes a range from its end to its start, and
what it returns has the parts of which the string consists. -/
theorem parse_lossless (cast : LexicalCast) (s : List Char) :
    parse cast s ≠ .error .invalidRange ∧
      ∀ u, parse cast s = .ok u → ∃ p h n q, Reassembles cast s u p h n q := by
  rcases parse_cases cast s with ⟨what, hwhat⟩ | ⟨protocol, rest, rfl, hfirst, hparse⟩
  · rw [hwhat]
    exact ⟨by simp, fun u hu => by cases hu⟩
  · rw [hparse]
    refine ⟨split_ne_invalidRange, fun u hu => ?_⟩
    obtain ⟨n, q, hparts⟩ := (split_eq_ok.mp hu).reassembles hfirst
    exact ⟨_, _, n, q, hparts⟩

/-- The law for a string of which every part is there but the query. -/
theorem parse_lossless_tcp :
    parse .int32 "tcp://127.0.0.1:40/bla".toList = .ok
      { protocol := "tcp".toList
        host := "127.0.0.1".toList
        path := "/bla".toList
        query := []
        port := 40 } ∧
      ∃ p h n q, Reassembles .int32 "tcp://127.0.0.1:40/bla".toList
        { protocol := "tcp".toList
          host := "127.0.0.1".toList
          path := "/bla".toList
          query := []
          port := 40 } p h n q := by
  have hparse : parse .int32 "tcp://127.0.0.1:40/bla".toList = .ok
      { protocol := "tcp".toList
        host := "127.0.0.1".toList
        path := "/bla".toList
        query := []
        port := 40 } := by
    decide
  exact ⟨hparse, (parse_lossless .int32 _).2 _ hparse⟩

/-- What is behind the protocol is acceptable: there is a host, and either a number as its port or no
colon anywhere. -/
def Acceptable (cast : LexicalCast) (rest : List Char) : Prop :=
  before ':' (before '/' rest) ≠ [] ∧
    if ':' ∈ before '/' rest then cast.toInt ((onward ':' (before '/' rest)).drop 1) ≠ none
    else ':' ∉ rest

/-- The parts of an acceptable rest are those of a URL. -/
theorem exists_splits {cast : LexicalCast} {protocol rest : List Char} :
    (∃ u, Splits cast protocol rest u) ↔ Acceptable cast rest := by
  constructor
  · intro hexists
    obtain ⟨u, h⟩ := hexists
    have hhost := h.host_ne
    have hport := h.port_eq
    rw [h.host_eq, ne_eq, List.map_eq_nil_iff] at hhost
    refine ⟨hhost, ?_⟩
    by_cases hauthority : ':' ∈ before '/' rest
    · rw [if_pos hauthority] at hport ⊢
      rw [hport]
      exact Option.some_ne_none u.port
    · rw [if_neg hauthority] at hport ⊢
      exact hport.1
  · intro h
    obtain ⟨hhost, hport⟩ := h
    have hlower : (before ':' (before '/' rest)).map Char.toLower ≠ [] := fun hnil =>
      hhost (List.map_eq_nil_iff.mp hnil)
    by_cases hauthority : ':' ∈ before '/' rest
    · rw [if_pos hauthority] at hport
      obtain ⟨port, hcast⟩ := Option.ne_none_iff_exists'.mp hport
      exact ⟨⟨_, _, _, _, port⟩, rfl, rfl, hlower, rfl, rfl, by rw [if_pos hauthority, hcast]⟩
    · rw [if_neg hauthority] at hport
      exact ⟨⟨_, _, _, _, -1⟩, rfl, rfl, hlower, rfl, rfl, by rw [if_neg hauthority]; exact ⟨hport, rfl⟩⟩

/-- `validate_url` accepts exactly the strings which have an acceptable rest behind their first `://`. -/
theorem validateUrl_iff {cast : LexicalCast} {s : List Char} :
    validateUrl cast s = true ↔ ∃ protocol rest, s = protocol ++ ("://".toList ++ rest) ∧
      (∀ i < protocol.length, ¬"://".toList <+: s.drop i) ∧ Acceptable cast rest := by
  have hvalid : validateUrl cast s = true ↔ ∃ u, parse cast s = .ok u := by
    unfold validateUrl
    cases parse cast s <;> simp
  rw [hvalid]
  constructor
  · intro hexists
    obtain ⟨u, hu⟩ := hexists
    rcases parse_cases cast s with ⟨what, hwhat⟩ | ⟨protocol, rest, hs, hfirst, hparse⟩
    · rw [hwhat] at hu
      cases hu
    · rw [hparse] at hu
      exact ⟨protocol, rest, hs, hfirst, exists_splits.mp ⟨u, split_eq_ok.mp hu⟩⟩
  · intro hexists
    obtain ⟨protocol, rest, rfl, hfirst, hacceptable⟩ := hexists
    have hlong : protocol ++ rest ≠ [] := by
      intro hnil
      rw [(List.append_eq_nil_iff.mp hnil).2] at hacceptable
      exact hacceptable.1 rfl
    obtain ⟨u, hu⟩ := exists_splits.mpr hacceptable
    exact ⟨u, (parse_eq_split cast hfirst hlong).trans (split_eq_ok.mpr hu)⟩

end Url

end Gpf

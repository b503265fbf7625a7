import Gpf.Util.UrlSplit

/-!
# Which URLs parse back to their parts

The parser looks for the colon of the port and for the slash of the path in all that follows the
protocol. So a colon in the path or the query is taken for that of a port, unless there is one, and
without a path the query becomes a part of the host or of the port.
-/

namespace Gpf

/-- The parts of a well-formed URL. -/
structure UrlParts where
  protocol : List Char
  host : List Char
  port : Option ℕ := none
  path : List Char := []
  query : Option (List Char) := none
  protocol_ne : protocol ≠ []
  protocol_alphanum : ∀ c ∈ protocol, c.isAlphanum
  host_ne : host ≠ []
  host_plain : ':' ∉ host ∧ '/' ∉ host ∧ '?' ∉ host
  port_le : ∀ n, port = some n → n ≤ 65535
  path_slash : path = [] ∨ ∃ rest, path = '/' :: rest
  path_plain : '?' ∉ path

namespace UrlParts

open Url Ranges

/-- What follows the protocol. -/
def rest (u : UrlParts) : List Char :=
  u.host ++ (behind ':' (u.port.map (Nat.toDigits 10)) ++ (u.path ++ behind '?' u.query))

/-- The URL as it is written. -/
def text (u : UrlParts) : List Char := u.protocol ++ ("://".toList ++ u.rest)

/-- The URL which its text is to be parsed to. -/
def toUrl (u : UrlParts) : Url where
  protocol := u.protocol.map Char.toLower
  host := u.host.map Char.toLower
  path := u.path
  query := u.query.getD []
  port := u.port.elim (-1) Nat.cast

/-- The parser keeps the delimiters apart: a query has a path before it, and without a port no colon is in
the path or the query. -/
def Unambiguous (u : UrlParts) : Prop :=
  (u.query ≠ none → u.path ≠ []) ∧ (u.port = none → ':' ∉ u.path ∧ ∀ q, u.query = some q → ':' ∉ q)

/-- The protocol is found where it is. -/
theorem first (u : UrlParts) : ∀ i < u.protocol.length, ¬"://".toList <+: u.text.drop i := by
  intro i hi hprefix
  obtain ⟨post, hpost⟩ := hprefix
  have hlt : i < u.text.length := by
    rw [text, List.length_append]
    omega
  have hhead : u.text[i] = ':' := by
    rw [List.drop_eq_getElem_cons hlt] at hpost
    exact (List.cons.inj hpost).1.symm
  have hletter := u.protocol_alphanum _ (List.getElem_mem hi)
  have hsame : u.text[i] = u.protocol[i] := List.getElem_append_left hi
  rw [← hsame, hhead] at hletter
  exact absurd hletter (by decide)

/-- The text of a URL parses to it exactly if its rest splits into its parts. -/
theorem parse_text_iff (cast : LexicalCast) (u : UrlParts) :
    parse cast u.text = .ok u.toUrl ↔ Splits cast u.protocol u.rest u.toUrl := by
  have hlong : u.protocol ++ u.rest ≠ [] := fun hnil => u.protocol_ne (List.append_eq_nil_iff.mp hnil).1
  rw [text, parse_eq_split cast u.first hlong, split_eq_ok]

/-- The digits of a port are neither delimiters nor signs. -/
theorem digits_plain (n : ℕ) {c : Char} (hc : c.isDigit = false) : c ∉ Nat.toDigits 10 n := by
  intro hmem
  have hdigit := Nat.isDigit_of_mem_toDigits (by decide) (by decide) hmem
  rw [hc] at hdigit
  cases hdigit

/-- What a number accepts as its text has no question mark. -/
theorem question_notMem (cast : LexicalCast) {s : List Char} {k : ℤ} (h : cast.toInt s = some k) :
    '?' ∉ s := by
  obtain ⟨sign, digits, rfl, hsign, -, hdigits⟩ := cast.digits_of_toInt s k h
  intro hmem
  rcases List.mem_append.mp hmem with hmem | hmem
  · rcases hsign with rfl | rfl | rfl
    · cases hmem
    · exact absurd hmem (by decide)
    · exact absurd hmem (by decide)
  · exact absurd (hdigits _ hmem) (by decide)

/-- The host and the port, as they are written. -/
def authority (u : UrlParts) : List Char := u.host ++ behind ':' (u.port.map (Nat.toDigits 10))

/-- The path and the query, as they are written. -/
def resource (u : UrlParts) : List Char := u.path ++ behind '?' u.query

/-- Without a port, the host is all that is before the path. -/
theorem authority_of_none {u : UrlParts} (hport : u.port = none) : u.authority = u.host := by
  rw [authority, hport]
  exact List.append_nil u.host

/-- A port is behind its colon. -/
theorem authority_of_some {u : UrlParts} {n : ℕ} (hport : u.port = some n) :
    u.authority = u.host ++ ':' :: Nat.toDigits 10 n := by
  rw [authority, hport]
  rfl

/-- The rest is made of these two. -/
theorem rest_eq (u : UrlParts) : u.rest = u.authority ++ u.resource := by
  simp only [rest, authority, resource, List.append_assoc]

/-- What is before the path has no slash. -/
theorem slash_notMem_authority (u : UrlParts) : '/' ∉ u.authority := by
  cases hport : u.port with
  | none =>
    rw [authority_of_none hport]
    exact u.host_plain.2.1
  | some n =>
    rw [authority_of_some hport, List.mem_append, List.mem_cons, not_or, not_or]
    exact ⟨u.host_plain.2.1, by decide, digits_plain n (by decide)⟩

/-- The host is what is before the colon of the port, or everything. -/
theorem before_authority (u : UrlParts) : before ':' u.authority = u.host := by
  cases hport : u.port with
  | none => rw [authority_of_none hport, before_of_notMem u.host_plain.1]
  | some n => rw [authority_of_some hport, before_append u.host_plain.1, before_cons_self, List.append_nil]

/-- The path and the query are apart. -/
theorem resource_split (u : UrlParts) :
    before '?' u.resource = u.path ∧ (onward '?' u.resource).drop 1 = u.query.getD [] := by
  rw [resource, before_append u.path_plain, onward_append u.path_plain]
  cases u.query with
  | none => exact ⟨List.append_nil u.path, rfl⟩
  | some q => simp [behind]

/-- Where the path begins, or without a path and a query the string ends, the first slash is found. -/
theorem rest_split (u : UrlParts) (hpath : u.query ≠ none → u.path ≠ []) :
    before '/' u.rest = u.authority ∧ onward '/' u.rest = u.resource := by
  rw [rest_eq, before_append u.slash_notMem_authority, onward_append u.slash_notMem_authority]
  rcases u.path_slash with hnil | ⟨path, hslash⟩
  · have hquery : u.query = none := by
      by_contra hne
      exact hpath hne hnil
    rw [resource, hnil, hquery]
    exact ⟨List.append_nil u.authority, rfl⟩
  · rw [resource, hslash, List.cons_append, before_cons_self, onward_cons_self]
    exact ⟨List.append_nil u.authority, rfl⟩

/-- If the first slash is that of the path, only a colon behind the host can go wrong. -/
theorem splits_iff_of_path (cast : LexicalCast) (u : UrlParts) (hpath : u.query ≠ none → u.path ≠ []) :
    Splits cast u.protocol u.rest u.toUrl ↔ (u.port = none → ':' ∉ u.resource) := by
  obtain ⟨hauthority, hresource⟩ := u.rest_split hpath
  obtain ⟨hbefore, hbehind⟩ := u.resource_split
  have hhost : u.toUrl.host ≠ [] := fun hnil => u.host_ne (List.map_eq_nil_iff.mp hnil)
  have hsplits : Splits cast u.protocol u.rest u.toUrl ↔
      if ':' ∈ u.authority then cast.toInt ((onward ':' u.authority).drop 1) = some u.toUrl.port
      else ':' ∉ u.rest ∧ u.toUrl.port = -1 := by
    constructor
    · intro h
      have hport := h.port_eq
      rwa [hauthority] at hport
    · intro hport
      refine ⟨rfl, ?_, hhost, ?_, ?_, ?_⟩
      · rw [hauthority, before_authority]
        rfl
      · rw [hresource, hbefore]
        rfl
      · rw [hresource, hbehind]
        rfl
      · rwa [hauthority]
  rw [hsplits]
  cases hport : u.port with
  | none =>
    have hall := authority_of_none hport
    have hnumber : u.toUrl.port = -1 := by rw [toUrl, hport, Option.elim_none]
    have hcolon : ':' ∉ u.authority := hall ▸ u.host_plain.1
    rw [if_neg hcolon, rest_eq, List.mem_append, not_or, and_iff_left hnumber, and_iff_right hcolon]
    exact ⟨fun h _ => h, fun h => h rfl⟩
  | some n =>
    have hall := authority_of_some hport
    have hnumber : u.toUrl.port = n := by rw [toUrl, hport, Option.elim_some]
    have hcolon : ':' ∈ u.authority := hall ▸ List.mem_append_right _ List.mem_cons_self
    rw [if_pos hcolon, hall, onward_append u.host_plain.1, onward_cons_self, List.drop_one, List.tail_cons,
      cast.toInt_decimal n (u.port_le n hport), hnumber]
    exact iff_of_true rfl fun h => by cases h

/-- A query without a path before it ends up in the host or in the port. -/
theorem not_splits_of_query (cast : LexicalCast) (u : UrlParts) {q : List Char} (hquery : u.query = some q)
    (hpath : u.path = []) : ¬Splits cast u.protocol u.rest u.toUrl := by
  intro h
  have hrest : before '/' u.rest = u.authority ++ ('?' :: before '/' q) := by
    have hskip : '/' ∉ ['?'] := by decide
    have hquestion := before_append hskip q
    rw [rest_eq, before_append u.slash_notMem_authority, resource, hpath, hquery]
    exact congrArg (u.authority ++ ·) hquestion
  cases hport : u.port with
  | none =>
    have hall := authority_of_none hport
    have hskip : ':' ∉ u.host ++ ['?'] := by
      intro hmem
      rcases List.mem_append.mp hmem with hmem | hmem
      · exact u.host_plain.1 hmem
      · exact absurd hmem (by decide)
    have hhost := congrArg List.length h.host_eq
    rw [hrest, hall, List.append_cons, before_append hskip] at hhost
    simp only [toUrl, List.length_map, List.length_append, List.length_cons] at hhost
    omega
  | some n =>
    have hall := authority_of_some hport
    have hnumber := h.port_eq
    rw [hrest, hall, List.append_assoc, List.cons_append, onward_append u.host_plain.1, onward_cons_self,
      List.drop_one, List.tail_cons, if_pos (List.mem_append_right _ List.mem_cons_self)] at hnumber
    exact question_notMem cast hnumber (List.mem_append_right _ List.mem_cons_self)

end UrlParts

/-- A well-formed URL parses back to its parts exactly if a query has a path before it, and without a port
no colon is in the path or the query. -/
theorem well_formed_parsed_iff (cast : LexicalCast) (u : UrlParts) :
    Url.parse cast u.text = .ok u.toUrl ↔ u.Unambiguous := by
  rw [UrlParts.parse_text_iff]
  by_cases hpath : u.query ≠ none → u.path ≠ []
  · have hcolon : ':' ∉ u.resource ↔ ':' ∉ u.path ∧ ∀ q, u.query = some q → ':' ∉ q := by
      rw [UrlParts.resource, List.mem_append, not_or]
      refine and_congr_right fun _ => ?_
      cases u.query with
      | none => simp [Url.behind]
      | some q => simp [Url.behind]
    rw [UrlParts.splits_iff_of_path cast u hpath, hcolon]
    exact ⟨fun h => ⟨hpath, h⟩, fun h => h.2⟩
  · obtain ⟨hquery, hnil⟩ := Classical.not_imp.mp hpath
    obtain ⟨q, hq⟩ := Option.ne_none_iff_exists'.mp hquery
    exact iff_of_false (UrlParts.not_splits_of_query cast u hq (not_not.mp hnil)) fun h => hpath h.1

/-- A URL with a colon in its path, and one with a query and no path. -/
theorem delimiters_confused :
    ∃ u v : UrlParts, u.text = "http://h/p:q".toList ∧ v.text = "http://h?q".toList ∧
      Url.parse .int32 u.text ≠ .ok u.toUrl ∧ Url.parse .int32 v.text ≠ .ok v.toUrl := by
  let u : UrlParts :=
    { protocol := "http".toList
      host := "h".toList
      path := "/p:q".toList
      protocol_ne := by decide
      protocol_alphanum := by simp
      host_ne := by decide
      host_plain := by decide
      port_le := by simp
      path_slash := .inr ⟨"p:q".toList, rfl⟩
      path_plain := by decide }
  let v : UrlParts :=
    { protocol := "http".toList
      host := "h".toList
      query := some "q".toList
      protocol_ne := by decide
      protocol_alphanum := by simp
      host_ne := by decide
      host_plain := by decide
      port_le := by simp
      path_slash := .inl rfl
      path_plain := by decide }
  exact ⟨u, v, rfl, rfl, by decide, by decide⟩

end Gpf

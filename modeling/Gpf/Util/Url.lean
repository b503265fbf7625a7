import Gpf.Library.Ranges

/-!
# URLs

`url::parse` cuts its argument with searches, each of which answers an iterator. An iterator is a
position in the string, and the string is the list of its (ASCII) characters. What the language leaves
undefined, an iterator outside the string or a range whose end lies before its start, is an
outcome of its own beside the exceptions.

`boost::lexical_cast<int>` is Boost's and appears as a parameter.
-/

namespace Gpf

/-- What keeps `url::parse` from returning: the exceptions it can be left by, and undefined behaviour. -/
inductive ParseFault
  | runtimeError (what : String)
  | lengthError
  | badLexicalCast
  | invalidRange
deriving DecidableEq

/-- `boost::lexical_cast<int>` of a string, `none` where it throws: it reads decimal numbers, and nothing
but digits behind an optional sign. -/
structure LexicalCast where
  toInt : List Char → Option ℤ
  toInt_decimal : ∀ n ≤ 65535, toInt (Nat.toDigits 10 n) = some (n : ℤ)
  digits_of_toInt : ∀ s k, toInt s = some k → ∃ sign digits, s = sign ++ digits ∧
    (sign = [] ∨ sign = ['+'] ∨ sign = ['-']) ∧ digits ≠ [] ∧ ∀ c ∈ digits, c.isDigit

namespace LexicalCast

/-- The number which a string of digits stands for. -/
def decimal? (digits : List Char) : Option ℕ :=
  if digits ≠ [] ∧ digits.all Char.isDigit then some (Nat.ofDigitChars 10 digits 0) else none

/-- The number which a string stands for, in the range of 32 bits. -/
def int32? (s : List Char) : Option ℤ :=
  match s with
  | '-' :: digits => (decimal? digits).bind fun n => if n ≤ 2147483648 then some (-n) else none
  | '+' :: digits => (decimal? digits).bind fun n => if n ≤ 2147483647 then some (n : ℤ) else none
  | digits => (decimal? digits).bind fun n => if n ≤ 2147483647 then some (n : ℤ) else none

/-- What stands for a number consists of digits. -/
theorem decimal?_some {digits : List Char} {n : ℕ} (h : decimal? digits = some n) :
    digits ≠ [] ∧ ∀ c ∈ digits, c.isDigit := by
  rw [← List.all_eq_true]
  by_contra hnot
  rw [decimal?, if_neg hnot] at h
  cases h

/-- The digits of a number stand for it. -/
theorem int32?_toDigits {n : ℕ} (hn : n ≤ 65535) : int32? (Nat.toDigits 10 n) = some (n : ℤ) := by
  have hdigits : ∀ c ∈ Nat.toDigits 10 n, c.isDigit := fun c hc =>
    Nat.isDigit_of_mem_toDigits (by decide) (by decide) hc
  have hdecimal : decimal? (Nat.toDigits 10 n) = some n := by
    rw [decimal?, if_pos ⟨Nat.toDigits_ne_nil, List.all_eq_true.mpr hdigits⟩,
      Nat.ofDigitChars_toDigits (by decide) (by decide)]
  have hrange : n ≤ 2147483647 := by omega
  unfold int32?
  split
  · rename_i heq
    rw [heq] at hdigits
    exact absurd (hdigits '-' List.mem_cons_self) (by decide)
  · rename_i heq
    rw [heq] at hdigits
    exact absurd (hdigits '+' List.mem_cons_self) (by decide)
  · rw [hdecimal, Option.bind_some, if_pos hrange]

/-- Decimal numbers in the range of a 32-bit `int`. -/
def int32 : LexicalCast where
  toInt := int32?
  toInt_decimal _ hn := int32?_toDigits hn
  digits_of_toInt s k h := by
    unfold int32? at h
    split at h
    · rename_i digits
      obtain ⟨n, hn, -⟩ := Option.bind_eq_some_iff.mp h
      exact ⟨['-'], digits, rfl, .inr (.inr rfl), decimal?_some hn⟩
    · rename_i digits
      obtain ⟨n, hn, -⟩ := Option.bind_eq_some_iff.mp h
      exact ⟨['+'], digits, rfl, .inr (.inl rfl), decimal?_some hn⟩
    · obtain ⟨n, hn, -⟩ := Option.bind_eq_some_iff.mp h
      exact ⟨[], s, rfl, .inl rfl, decimal?_some hn⟩

end LexicalCast

/-- `url`. -/
structure Url where
  protocol : List Char
  host : List Char
  path : List Char
  query : List Char
  port : ℤ
deriving DecidableEq

namespace Url

open Ranges

/-- Leave with a fault if a test is met. -/
def throwIf (test : Bool) (fault : ParseFault) : Except ParseFault Unit :=
  if test then .error fault else .ok ()

/-- What follows a step that returns. -/
@[simp] theorem ok_bind {α β : Type} (a : α) (f : α → Except ParseFault β) : (.ok a >>= f) = f a := rfl

/-- A fault ends everything. -/
@[simp] theorem error_bind {α β : Type} (fault : ParseFault) (f : α → Except ParseFault β) :
    (.error fault >>= f) = .error fault := rfl

/-- An operation on iterators, undefined where the positions do not allow it. -/
def defined {α : Type} : Option α → Except ParseFault α
  | some a => .ok a
  | none => .error .invalidRange

/-- Copy a range. -/
def copy (s : List Char) (first last : ℕ) : Except ParseFault (List Char) :=
  defined (range s first last)

/-- `std::transform` of a range by `tolower`. -/
def transformToLower (s : List Char) (first last : ℕ) : Except ParseFault (List Char) :=
  defined ((range s first last).map (List.map Char.toLower))

/-- `std::distance`. -/
def distance (first last : ℕ) : ℤ := last - first

/-- `string::reserve`, to which a negative distance is a request above `max_size`. -/
def reserve (n : ℤ) : Except ParseFault Unit := throwIf (n < 0) .lengthError

/-- `boost::lexical_cast<int>`, with its exception. -/
def lexicalCast (cast : LexicalCast) (s : List Char) : Except ParseFault ℤ :=
  match cast.toInt s with
  | some n => .ok n
  | none => .error .badLexicalCast

/-- The text with which a string is reported that has no host. -/
def parsingError (url_s : List Char) : ParseFault :=
  .runtimeError ("URL parsing error: `" ++ String.ofList url_s ++ "'")

/-- `url::parse` at the port: its number, `-1` without a colon, and the end of the host. -/
def parsePort (cast : LexicalCast) (url_s : List Char) (port_i path_i : ℕ) :
    Except ParseFault (ℤ × ℕ) :=
  if port_i ≠ url_s.length then do
    let port_i ← defined (advance url_s port_i 1)
    reserve (distance port_i path_i)
    let portstr ← copy url_s port_i path_i
    let port ← lexicalCast cast portstr
    pure (port, port_i - 1)
  else pure (-1, path_i)

/-- `url::parse` at the query: one further, unless it is at the end. -/
def skipQuestionMark (url_s : List Char) (query_i : ℕ) : Except ParseFault ℕ :=
  if query_i ≠ url_s.length then defined (advance url_s query_i 1) else pure query_i

/-- `url::parse` from the host on. -/
def parseHost (url_s protocol : List Char) (prot_i host_end path_i : ℕ) (port : ℤ) :
    Except ParseFault Url := do
  reserve (distance prot_i host_end)
  let host ← transformToLower url_s prot_i host_end
  let query_i := find url_s path_i '?'
  let path ← copy url_s path_i query_i
  let query_i ← skipQuestionMark url_s query_i
  let query ← copy url_s query_i url_s.length
  throwIf (host.length = 0) (parsingError url_s)
  throwIf (host.contains '/') (parsingError url_s)
  pure { protocol := protocol, host := host, path := path, query := query, port := port }

/-- `url::parse`. -/
def parse (cast : LexicalCast) (url_s : List Char) : Except ParseFault Url := do
  let prot_end := "://".toList
  throwIf (url_s.length ≤ prot_end.length) (.runtimeError "Url Parser: URL too short!")
  let prot_i := search url_s prot_end
  reserve (distance 0 prot_i)
  let protocol ← transformToLower url_s 0 prot_i
  throwIf (prot_i = url_s.length) (.runtimeError
    ("Url Parser: Could not find protocol string :// in `" ++ String.ofList url_s ++ "'"))
  let prot_i ← defined (advance url_s prot_i prot_end.length)
  let port_i := find url_s prot_i ':'
  let path_i := find url_s prot_i '/'
  let (port, host_end) ← parsePort cast url_s port_i path_i
  parseHost url_s protocol prot_i host_end path_i port

example : parse .int32 "tcp://127.0.0.1:40/bla".toList = .ok
    { protocol := "tcp".toList, host := "127.0.0.1".toList, path := "/bla".toList, query := []
      port := 40 } := by decide

example : parse .int32 "tcp:///127.0.0.1".toList =
    .error (.runtimeError "URL parsing error: `tcp:///127.0.0.1'") := by decide

/-- `validate_url`. -/
def validateUrl (cast : LexicalCast) (u : List Char) : Bool :=
  match parse cast u with
  | .ok _ => true
  | .error _ => false

end Url

end Gpf

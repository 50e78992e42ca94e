import Mathlib.Algebra.Order.Floor.Div
import Mathlib.Data.List.DropRight
import Mathlib.GroupTheory.GroupAction.Ring
import Peekbeam.Common

/-!
# Path text

The pathname bytes of a file event become the text shown in the file table: decoded as UTF-8 with
every invalid sequence replaced (`fromUtf8Lossy`), and marked with an ellipsis when the capture
buffer may have cut the name short (`formatPath`).

Narrow columns show a path with its middle left out (`truncateMiddle`), so that the file name at
its end stays readable; `truncate_middle_exact` says what is shown.

A Rust `String` is the list of its characters (`Text`).
-/

namespace Peekbeam

/-- The characters of a `String`. -/
abbrev Text := List Char

/-! ## Lossy decoding -/

/-- Where a decoder stands between two bytes: between characters, or inside one, of which the
code bits `acc` were read, the next byte has to lie in `[lo, hi]` and `more` continuation bytes
follow that one. -/
inductive Utf8State
  | start
  | inside (acc : ℕ) (lo hi : UInt8) (more : ℕ)
  deriving DecidableEq

/-- `U+FFFD`, which stands for each invalid sequence. -/
def REPLACEMENT_CHARACTER : Char := Char.ofNat 0xFFFD

namespace Utf8State

/-- The first byte of a character: the output it causes and the state after it. -/
def first (b : UInt8) : Text × Utf8State :=
  if b < 0x80 then ([Char.ofNat b.toNat], start)
  else if 0xC2 ≤ b ∧ b ≤ 0xDF then ([], inside (b.toNat - 0xC0) 0x80 0xBF 0)
  else if b = 0xE0 then ([], inside 0 0xA0 0xBF 1)
  else if b = 0xED then ([], inside 0xD 0x80 0x9F 1)
  else if 0xE1 ≤ b ∧ b ≤ 0xEF then ([], inside (b.toNat - 0xE0) 0x80 0xBF 1)
  else if b = 0xF0 then ([], inside 0 0x90 0xBF 2)
  else if 0xF1 ≤ b ∧ b ≤ 0xF3 then ([], inside (b.toNat - 0xF0) 0x80 0xBF 2)
  else if b = 0xF4 then ([], inside 4 0x80 0x8F 2)
  else ([REPLACEMENT_CHARACTER], start)

/-- One byte.  A byte that cannot continue the character begun replaces what was read of it and
is then looked at afresh. -/
def next : Utf8State → UInt8 → Text × Utf8State
  | start, b => first b
  | inside acc lo hi more, b =>
    if lo ≤ b ∧ b ≤ hi then
      let acc := 64 * acc + (b.toNat - 0x80)
      match more with
      | 0 => ([Char.ofNat acc], start)
      | more + 1 => ([], inside acc 0x80 0xBF more)
    else
      let (out, state) := first b
      (REPLACEMENT_CHARACTER :: out, state)

/-- The text decoded from `bytes`, from a given state on. -/
def decode : Utf8State → List UInt8 → Text
  | start, [] => []
  | inside .., [] => [REPLACEMENT_CHARACTER]
  | state, b :: bytes =>
    let (out, state) := state.next b
    out ++ state.decode bytes

end Utf8State

/-- `String::from_utf8_lossy`. -/
def fromUtf8Lossy (bytes : List UInt8) : Text := Utf8State.start.decode bytes

-- the longest invalid sequence is replaced as one: a cut `…` (E2 80 A6), then `a`
example : fromUtf8Lossy [0xE2, 0x80, 0x61] = [REPLACEMENT_CHARACTER, 'a'] := by decide +kernel

/-! ## Paths -/

/-- `format_path`. -/
def formatPath (path : List UInt8) (pathLen : UInt16) : Text :=
  let len := min pathLen.toNat path.length
  let text := fromUtf8Lossy (path.take len)
  if pathLen.toNat ≥ FILE_PATH_MAX then text ++ ['…'] else text

/-! ## Truncation -/

section Checked
variable {α : Type}

/-- `a - b` on lengths; below zero it panics. -/
def checkedSub (a b : ℕ) : Option ℕ := if b ≤ a then some (a - b) else none

/-- `&chars[..n]`; out of range it panics. -/
def sliceTo (chars : List α) (n : ℕ) : Option (List α) :=
  if n ≤ chars.length then some (chars.take n) else none

/-- `&chars[n..]`; out of range it panics. -/
def sliceFrom (chars : List α) (n : ℕ) : Option (List α) :=
  if n ≤ chars.length then some (chars.drop n) else none

lemma checkedSub_of_le {a b : ℕ} (h : b ≤ a) : checkedSub a b = some (a - b) := if_pos h

lemma sliceTo_of_le {chars : List α} {n : ℕ} (h : n ≤ chars.length) :
    sliceTo chars n = some (chars.take n) :=
  if_pos h

lemma sliceFrom_of_le {chars : List α} {n : ℕ} (h : n ≤ chars.length) :
    sliceFrom chars n = some (chars.drop n) :=
  if_pos h

end Checked

/-- `truncate_middle`; no result is a panic. -/
def truncateMiddle (path : Text) (maxLen : ℕ) : Option Text :=
  let charCount := path.length
  if charCount ≤ maxLen ∨ maxLen < 5 then some path
  else do
    let keep ← checkedSub maxLen 1
    let head := keep / 2
    let tail ← checkedSub keep head
    let headStr ← sliceTo path head
    let start ← checkedSub charCount tail
    let tailStr ← sliceFrom path start
    return headStr ++ '…' :: tailStr

lemma truncateMiddle_of_fits {path : Text} {maxLen : ℕ} (h : path.length ≤ maxLen ∨ maxLen < 5) :
    truncateMiddle path maxLen = some path :=
  if_pos h

/-- The larger half of what is kept stands after the ellipsis. -/
lemma ceilDiv_two (keep : ℕ) : keep ⌈/⌉ 2 = keep - keep / 2 := by
  rw [Nat.ceilDiv_eq_add_pred_div]
  omega

lemma truncateMiddle_of_long {path : Text} {maxLen : ℕ} (hlong : maxLen < path.length)
    (hwide : 5 ≤ maxLen) :
    truncateMiddle path maxLen =
      some (path.take ((maxLen - 1) / 2) ++ '…' :: path.rtake ((maxLen - 1) ⌈/⌉ 2)) := by
  rw [truncateMiddle, if_neg (by omega : ¬ (path.length ≤ maxLen ∨ maxLen < 5)),
    checkedSub_of_le (by omega : 1 ≤ maxLen)]
  have htail : maxLen - 1 - (maxLen - 1) / 2 ≤ path.length := by omega
  simp only [Option.bind_eq_bind, Option.bind_some, checkedSub_of_le (Nat.div_le_self _ 2),
    checkedSub_of_le htail, sliceTo_of_le (by omega : (maxLen - 1) / 2 ≤ path.length),
    sliceFrom_of_le (Nat.sub_le path.length _), ceilDiv_two]
  rfl

/-- A long path is shown in exactly the room there is. -/
lemma length_truncated {path : Text} {maxLen : ℕ} (hlong : maxLen < path.length)
    (hwide : 5 ≤ maxLen) :
    (path.take ((maxLen - 1) / 2) ++ '…' :: path.rtake ((maxLen - 1) ⌈/⌉ 2)).length = maxLen := by
  simp only [List.length_append, List.length_cons, List.length_take, List.rtake,
    List.length_drop, ceilDiv_two]
  omega

/-- Of two ends of a list, the shorter is an end of the longer. -/
lemma isSuffix_rtake {path last : Text} {n : ℕ} (hlast : last <:+ path) (h : last.length ≤ n) :
    last <:+ path.rtake n := by
  obtain ⟨front, rfl⟩ := hlast
  rw [List.rtake, List.drop_append_of_le_length (by simp; omega)]
  exact List.suffix_append _ _

/-- The final component of a path. -/
def fileName (path : Text) : Text := path.rtakeWhile (· ≠ '/')

/-- **`truncate_middle` is safe, exact and idempotent.**  It never panics; a path that fits, or a
column too narrow to be worth it, leaves the path as it is, and otherwise both ends of the path
are shown around an ellipsis, in exactly `maxLen` characters.  A final component of at most the
length of the second end is shown whole, and truncating again changes nothing. -/
theorem truncate_middle_exact (path : Text) (maxLen : ℕ) :
    ∃ shown, truncateMiddle path maxLen = some shown ∧
      (if path.length ≤ maxLen ∨ maxLen < 5 then shown = path
        else shown = path.take ((maxLen - 1) / 2) ++ '…' :: path.rtake ((maxLen - 1) ⌈/⌉ 2) ∧
          shown.length = maxLen) ∧
      ((fileName path).length ≤ (maxLen - 1) ⌈/⌉ 2 → fileName path <:+ shown) ∧
      truncateMiddle shown maxLen = some shown := by
  have hname : fileName path <:+ path := List.rtakeWhile_suffix _ _
  by_cases hfits : path.length ≤ maxLen ∨ maxLen < 5
  · have hshown : truncateMiddle path maxLen = some path := truncateMiddle_of_fits hfits
    refine ⟨path, hshown, ?_, fun _ => hname, hshown⟩
    rw [if_pos hfits]
  · obtain ⟨hlong, hwide⟩ : maxLen < path.length ∧ 5 ≤ maxLen := by omega
    have hlength := length_truncated hlong hwide
    refine ⟨_, truncateMiddle_of_long hlong hwide, ?_, fun h => ?_, ?_⟩
    · rw [if_neg hfits]
      exact ⟨rfl, hlength⟩
    · apply (isSuffix_rtake hname h).trans
      exact ⟨path.take ((maxLen - 1) / 2) ++ ['…'], by simp⟩
    · apply truncateMiddle_of_fits
      omega

-- the file name survives in a column of 12
example : truncateMiddle "/usr/lib/libc.so".toList 12 = some "/usr/…ibc.so".toList := by decide

end Peekbeam

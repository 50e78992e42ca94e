import Peekbeam.MemStats

/-!
# Fault counters and process names

A stat file is one record, `pid (comm) state f4 f5 ...`, in which the name of the process stands
unescaped between parentheses: it may hold parentheses, white space and digits, and so look like
any part of a record.  `read_faults` counts fields from the last `)`, after which no field holds
another, so it finds the tenth and twelfth fields whatever the name is.

`read_faults_exact` is that for all processes of a target.
-/

namespace Peekbeam

open Accumulators Str

/-! ## Stat records -/

/-- What a stat record says after the name: the state, which is field 3, then `fields` from field
4 on, of which the tenth and twelfth of the record are numbers. -/
structure StatTail where
  state : Text
  fields : List Text
  minFlt : UInt64
  majFlt : UInt64
  ending : Text
  state_word : IsWord state ∧ ')' ∉ state
  field_word : ∀ f ∈ fields, IsWord f ∧ ')' ∉ f
  min_field : fields[6]?.bind parseU64 = some minFlt
  maj_field : fields[8]?.bind parseU64 = some majFlt
  ending_white : ∀ c ∈ ending, isWhitespace c = true

namespace StatTail

def text (tail : StatTail) : Text :=
  [' '].intercalate (tail.state :: tail.fields) ++ tail.ending

/-- The words of the text are the fields. -/
lemma splitWhitespace_text (tail : StatTail) :
    splitWhitespace (' ' :: tail.text) = tail.state :: tail.fields := by
  have hspace : isWhitespace ' ' = true := by decide
  rw [splitWhitespace_cons hspace, text, splitWhitespace_intercalate _ hspace tail.ending_white]
  intro w hw
  rcases List.mem_cons.mp hw with rfl | hw
  · exact tail.state_word.1
  · exact (tail.field_word w hw).1

lemma not_mem_text (tail : StatTail) : ')' ∉ ' ' :: tail.text := by
  have hwhite : ')' ∉ tail.ending := fun h => absurd (tail.ending_white _ h) (by decide)
  intro h
  obtain h | h : ')' ∈ [' '].intercalate (tail.state :: tail.fields) ∨ ')' ∈ tail.ending := by
    simpa [text] using h
  · rcases mem_of_mem_intercalate h with h | ⟨w, hw, hmem⟩
    · exact absurd h (by decide)
    · rcases List.mem_cons.mp hw with rfl | hw
      · exact tail.state_word.2 hmem
      · exact (tail.field_word w hw).2 hmem
  · exact hwhite h

lemma word_of_parseU64 {f : Text} (h : (parseU64 f).isSome) : IsWord f ∧ ')' ∉ f := by
  rw [parseU64, Option.isSome_map] at h
  obtain ⟨hne, hchar⟩ := of_parseUnsigned_isSome h
  refine ⟨⟨hne, fun c hc => ?_⟩, fun hmem => ?_⟩
  · rcases hchar c hc with hdigit | rfl
    · exact (of_isDigit hdigit).1
    · decide
  · rcases hchar _ hmem with hdigit | hsign
    · exact absurd hdigit (by decide)
    · exact absurd hsign (by decide)

/-- A record of ten or more numbers after the state. -/
def ofDecimals (state : Text) (fields : List Text) (ending : Text)
    (hstate : IsWord state ∧ ')' ∉ state) (hfields : 10 ≤ fields.length)
    (hdecimal : ∀ f ∈ fields, (parseU64 f).isSome)
    (hending : ∀ c ∈ ending, isWhitespace c = true) : StatTail where
  state
  fields
  minFlt := (parseU64 fields[6]).get (hdecimal _ (List.getElem_mem _))
  majFlt := (parseU64 fields[8]).get (hdecimal _ (List.getElem_mem _))
  ending
  state_word := hstate
  field_word := fun f hf => word_of_parseU64 (hdecimal f hf)
  min_field := by
    rw [List.getElem?_eq_getElem (by omega)]
    simp
  maj_field := by
    rw [List.getElem?_eq_getElem (by omega)]
    simp
  ending_white := hending

end StatTail

/-- The stat record of a process with the name `comm`. -/
def statText (pid : UInt32) (comm : Text) (tail : StatTail) : Text :=
  Nat.toDigits 10 pid.toNat ++ " (".toList ++ comm ++ ')' :: ' ' :: tail.text

/-- **No name deceives the parser.** -/
lemma statFaults_statText (pid : UInt32) (comm : Text) (tail : StatTail) :
    statFaults (statText pid comm tail) = some { minFlt := tail.minFlt, majFlt := tail.majFlt } := by
  obtain ⟨minField, hmin, hminFlt⟩ := Option.bind_eq_some_iff.mp tail.min_field
  obtain ⟨majField, hmaj, hmajFlt⟩ := Option.bind_eq_some_iff.mp tail.maj_field
  rw [statFaults, statText, afterLast_append_cons _ tail.not_mem_text]
  simp [tail.splitWhitespace_text, hmin, hmaj, hminFlt, hmajFlt]

/-! ## The sums -/

section Sums
variable {fs : Files} {target : MemoryTarget} {pids : List UInt32}
  {record : UInt32 → Option (Text × StatTail)}

/-- The processes that count are those with a stat file. -/
lemma faultsRead_of_records (hstat : ∀ pid ∈ pids, fs (statPath pid) =
      (record pid).map fun r => statText pid r.1 r.2) :
    faultsRead fs pids = (pids.filterMap record).map fun r =>
      { minFlt := r.2.minFlt, majFlt := r.2.majFlt } := by
  rw [faultsRead, List.map_filterMap]
  apply List.filterMap_congr
  intro pid hpid
  rw [hstat pid hpid]
  cases record pid with
  | none => rfl
  | some r => exact statFaults_statText pid r.1 r.2

/-- **The stat parser is immune to process names.**  When every process of the target either has
no readable stat file or one that is the record of a process with some name, whatever it is,
`read_faults` fails exactly if it can read none, and otherwise gives the sums of the tenth and of
the twelfth fields, as long as these are numbers of 64 bits. -/
theorem read_faults_exact (hpids : targetPids fs target = .ok pids)
    (hstat : ∀ pid ∈ pids, fs (statPath pid) =
      (record pid).map fun r => statText pid r.1 r.2) :
    ((∃ e, readFaults fs target = .error e) ↔ ∀ pid ∈ pids, fs (statPath pid) = none) ∧
      ∀ stats, readFaults fs target = .ok stats →
        (((pids.filterMap record).map fun r => r.2.minFlt.toNat).sum < 2 ^ 64 →
          stats.minFlt.toNat = ((pids.filterMap record).map fun r => r.2.minFlt.toNat).sum) ∧
        (((pids.filterMap record).map fun r => r.2.majFlt.toNat).sum < 2 ^ 64 →
          stats.majFlt.toNat = ((pids.filterMap record).map fun r => r.2.majFlt.toNat).sum) := by
  have hread := faultsRead_of_records hstat
  have hnone : faultsRead fs pids = [] ↔ ∀ pid ∈ pids, fs (statPath pid) = none := by
    rw [hread, List.map_eq_nil_iff, List.filterMap_eq_nil_iff]
    refine forall₂_congr fun pid hpid => ?_
    rw [hstat pid hpid, Option.map_eq_none_iff]
  have hsum : readFaults fs target = sumFaults fs pids := by rw [readFaults, hpids]
  refine ⟨by rw [hsum, sumFaults_error_iff, hnone], ?_⟩
  intro stats hok
  obtain ⟨hmin, hmaj⟩ := of_sumFaults_ok (hsum ▸ hok)
  rw [hmin, hmaj, hread]
  simp only [List.map_map, toNat_sum, Function.comp_def]
  exact ⟨Nat.mod_eq_of_lt, Nat.mod_eq_of_lt⟩

end Sums

/-- The fields of process 7, which had 12 minor faults and 3 major ones. -/
def fieldsOf7 : List Text :=
  ["1", "7", "7", "0", "5", "64", "12", "0", "3", "0"].map String.toList

lemma word_S : IsWord ['S'] ∧ ')' ∉ ['S'] := by
  simp [IsWord, isWhitespace]

lemma length_fieldsOf7 : 10 ≤ fieldsOf7.length := by
  simp [fieldsOf7]

lemma decimal_fieldsOf7 : ∀ f ∈ fieldsOf7, (parseU64 f).isSome := by
  decide +kernel

lemma white_lineFeed : ∀ c ∈ ['\n'], isWhitespace c = true := by
  simp [isWhitespace]

def tailOf7 : StatTail :=
  .ofDecimals ['S'] fieldsOf7 ['\n'] word_S length_fieldsOf7 decimal_fieldsOf7 white_lineFeed

/-- The name of process 7 looks like the record of another process. -/
def filesOf7 : Files := fun path =>
  if path = statPath 7 then some (statText 7 "x) S 1 1 1 1 1 1 9 1 9 (y)".toList tailOf7) else none

theorem read_faults_exact_deceptive :
    (¬ ∃ e, readFaults filesOf7 (.Pid 7) = .error e) ∧
      ∀ stats, readFaults filesOf7 (.Pid 7) = .ok stats →
        stats.minFlt.toNat = 12 ∧ stats.majFlt.toNat = 3 := by
  have hpids : targetPids filesOf7 (.Pid 7) = .ok [7] := rfl
  have hstat : ∀ pid ∈ [(7 : UInt32)], filesOf7 (statPath pid) =
      (some ("x) S 1 1 1 1 1 1 9 1 9 (y)".toList, tailOf7)).map fun r => statText pid r.1 r.2 := by
    intro pid hpid
    obtain rfl := List.mem_singleton.mp hpid
    exact if_pos rfl
  obtain ⟨herror, hok⟩ := read_faults_exact hpids hstat
  have hreadable : filesOf7 (statPath 7) ≠ none := by simp [filesOf7]
  refine ⟨fun h => hreadable (herror.mp h 7 (by simp)), fun stats h => ?_⟩
  obtain ⟨hmin, hmaj⟩ := hok stats h
  exact ⟨hmin (by decide +kernel), hmaj (by decide +kernel)⟩

end Peekbeam

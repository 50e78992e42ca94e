import Peekbeam.Foundation.Lines
import Peekbeam.Summary

/-!
# Headless mode

`headless::run` polls the rings every 50 ms until it is told to stop.  With `--json` and no
`--duration` it prints a summary whenever a refresh interval has passed since the last one, and a
final one when it stops, each with `println!`.

The loop is a function of what it observes in each iteration (`Iteration`): the shutdown flag, the
clock at the two places it is read, and the summary that the tables and `/proc` yield if one is
built.  A finite list of iterations is a run so far, stopped or not.

`json_line_framed_iff` asks for one document per line, as the module's documentation promises for
the streaming mode.  The summaries are printed in the indented form, so no run that has printed
one is framed by lines.
-/

namespace Peekbeam

open Framing

/-- What one iteration of the loop observes.  Instants and durations are in nanoseconds. -/
structure Iteration where
  /-- `signals::requested`, after the rings were polled. -/
  shutdown : Bool
  /-- The clock when `elapsed` is asked for. -/
  now : ℕ
  /-- The clock after a periodic summary was printed. -/
  printed : ℕ
  /-- What `build_summary` returns, if it is called. -/
  summary : Summary

/-- The loop of `headless::run`, from a given `last_emit` on: the summaries printed with `--json`,
periodic and final. -/
def headlessLoop (duration : Option ℕ) (refresh start : ℕ) : ℕ → List Iteration → List Summary
  | _, [] => []
  | lastEmit, it :: its =>
    if it.shutdown then [it.summary]
    else
      match duration with
      | some d =>
        if it.now - start ≥ d then [it.summary]
        else headlessLoop duration refresh start lastEmit its
      | none =>
        if it.now - lastEmit ≥ refresh then
          it.summary :: headlessLoop duration refresh start it.printed its
        else headlessLoop duration refresh start lastEmit its

/-- The summaries `headless::run` prints with `--json`; `start` and `last_emit` are read before
the loop. -/
def headlessRun (duration : Option ℕ) (refresh start lastEmit : ℕ) (its : List Iteration) :
    List Summary :=
  headlessLoop duration refresh start lastEmit its

/-- The standard output of a run: `println!` of each document. -/
def stdout {ε : Type} (toStringPretty : Value → Except ε Text) (emitted : List Summary) : Text :=
  unlines '\n' (emitted.map (Summary.toJson toStringPretty))

/-- Reading the output line by line gives one whole document per summary, in order. -/
def LineFramed {ε : Type} (toStringPretty : Value → Except ε Text) (emitted : List Summary) :
    Prop :=
  lines '\n' (stdout toStringPretty emitted) = emitted.map (Summary.toJson toStringPretty)

/-- A run without a duration prints nothing as long as it is not told to stop and no refresh
interval has passed. -/
lemma headlessLoop_none_eq_nil_iff {refresh start : ℕ} {its : List Iteration} (lastEmit : ℕ) :
    headlessLoop none refresh start lastEmit its = [] ↔
      ∀ it ∈ its, it.shutdown = false ∧ it.now - lastEmit < refresh := by
  induction its with
  | nil => simp [headlessLoop]
  | cons it its ih =>
    rw [headlessLoop, List.forall_mem_cons, ← ih]
    by_cases hit : it.shutdown = true
    · simp [hit]
    · by_cases hover : it.now - lastEmit ≥ refresh
      · simp [hit, hover]
      · simp [hit, hover, lt_of_not_ge hover]

/-- **Streaming is never framed by lines.**  Given that the indented form puts each field of an
object on its own line, a run with `--json` and no `--duration` yields one document per line only
as long as it has printed nothing: it was not told to stop, and no refresh interval has passed
since the start.  And every run that is told to stop has printed a summary. -/
theorem json_line_framed_iff {ε : Type} {toStringPretty : Value → Except ε Text}
    (h : Json.FieldPerLine toStringPretty) (refresh start lastEmit : ℕ) (its : List Iteration) :
    (LineFramed toStringPretty (headlessRun none refresh start lastEmit its) ↔
      ∀ it ∈ its, it.shutdown = false ∧ it.now - lastEmit < refresh) ∧
    ((∃ it ∈ its, it.shutdown = true) → headlessRun none refresh start lastEmit its ≠ []) := by
  have hsilent : headlessRun none refresh start lastEmit its = [] ↔
      ∀ it ∈ its, it.shutdown = false ∧ it.now - lastEmit < refresh :=
    headlessLoop_none_eq_nil_iff lastEmit
  constructor
  · rw [← hsilent, LineFramed, stdout, lines_unlines_iff]
    constructor
    · intro hframed
      by_contra hne
      obtain ⟨s, hs⟩ := List.exists_mem_of_ne_nil _ hne
      exact hframed _ (List.mem_map_of_mem hs) (s.newline_mem_toJson h)
    · intro hnil
      simp [hnil]
  · rintro ⟨it, hmem, hstop⟩ hnil
    simp [(hsilent.mp hnil it hmem).1] at hstop

/-- A run stopped at once, on an idle target. -/
def stoppedAtOnce : List Iteration :=
  [{ shutdown := true, now := 0, printed := 0
     summary :=
      { target := "PID 1".toList, uptimeSecs := 0, syscalls := [], connections := [], files := []
        kernelAllocs := 0, kernelAllocBytes := 0, kernelFrees := 0
        memory := none, pageFaults := none } }]

/-- The indented form, with no floating-point number to write. -/
def prettyWithoutFloats (v : Value) : Except Unit Text := .ok (v.pretty (fun _ => []) 0)

lemma fieldPerLine_prettyWithoutFloats : Json.FieldPerLine prettyWithoutFloats :=
  Json.fieldPerLine_pretty _

theorem json_line_framed_iff_stoppedAtOnce :
    headlessRun none 1000000000 0 0 stoppedAtOnce ≠ [] :=
  (json_line_framed_iff fieldPerLine_prettyWithoutFloats 1000000000 0 0 stoppedAtOnce).2
    ⟨_, List.mem_singleton.mpr rfl, rfl⟩

/-- Its one document takes twelve lines. -/
theorem stopped_at_once_is_not_framed :
    ¬ LineFramed prettyWithoutFloats (headlessRun none 1000000000 0 0 stoppedAtOnce) ∧
      (lines '\n' (stdout prettyWithoutFloats
        (headlessRun none 1000000000 0 0 stoppedAtOnce))).length = 12 := by
  have hlength : (lines '\n' (stdout prettyWithoutFloats
      (headlessRun none 1000000000 0 0 stoppedAtOnce))).length = 12 := by decide +kernel
  refine ⟨fun h => ?_, hlength⟩
  rw [LineFramed] at h
  rw [h] at hlength
  simp [headlessRun, headlessLoop, stoppedAtOnce] at hlength

end Peekbeam

import Peekbeam.Foundation.Throttle
import Peekbeam.Headless
import Peekbeam.PollLoops
import Peekbeam.SummaryBuild

/-!
# Headless runs

`headless::run` on a live target: the loop of `Headless.lean`, with the tables that polling yields
in each iteration (`PollLoops.lean`) and the summaries that are built of them (`SummaryBuild.lean`).

With `--duration` it prints one summary, in the first iteration that finds the window over or the
shutdown flag set (`duration_prints_once`).  Without, it prints a summary whenever a refresh
interval has passed, and one when it is told to stop; they account for more and more, and there
are not too many of them (`streaming_follows_the_trace`) and not too few (`streaming_is_prompt`).
-/

namespace Peekbeam

/-! ## Iterations -/

/-- One iteration of `headless::run`.  The clock is read up to three times, and never goes back. -/
structure HeadlessTick where
  activity : Activity
  /-- `signals::requested`, after the poll. -/
  shutdown : Bool
  /-- The clock when `elapsed` is asked for. -/
  now : ℕ
  /-- The clock in `build_summary`. -/
  built : ℕ
  /-- The clock after a summary was printed. -/
  printed : ℕ
  now_le_built : now ≤ built
  built_le_printed : built ≤ printed
  files : Files
  order : HashOrder

namespace HeadlessTick

lemma now_le_printed (tick : HeadlessTick) : tick.now ≤ tick.printed :=
  tick.now_le_built.trans tick.built_le_printed

/-- What `build_summary` finds, besides the tables. -/
def around (start : ℕ) (tick : HeadlessTick) : Surroundings where
  uptimeSecs := UInt64.ofNat ((tick.built - start) / 1000000000)
  files := tick.files
  order := tick.order

/-- `build_summary`. -/
def summary (subject : Subject) (start : ℕ) (p : HeadlessTick × Tables) : Summary :=
  Summary.build subject (p.1.around start) p.2

/-- What the loop observes in an iteration. -/
def observe (subject : Subject) (start : ℕ) (p : HeadlessTick × Tables) : Iteration where
  shutdown := p.1.shutdown
  now := p.1.now
  printed := p.1.printed
  summary := summary subject start p

/-- The tables after each poll. -/
def seen (target : Target) (past : List Firing) (ticks : List HeadlessTick) : List (HeadlessTick × Tables) :=
  polled activity (.started target past) ticks

/-- The summaries of a run on a live target. -/
def run (subject : Subject) (target : Target) (past : List Firing) (duration : Option ℕ)
    (refresh start lastEmit : ℕ) (ticks : List HeadlessTick) : List Summary :=
  headlessRun duration refresh start lastEmit ((seen target past ticks).map (observe subject start))

end HeadlessTick

/-- What is printed.  Without `--json` the mode is chosen by `--duration`, so there is a final
summary only. -/
def headlessOutput {ε : Type} (toStringPretty : Value → Except ε Text) (fixed : ℕ → Float → Text)
    (json : Bool) (summaries : List Summary) : List Text :=
  summaries.map fun s => if json then s.toJson toStringPretty else s.toPlainText fixed

/-! ## With a duration -/

section Duration
variable (d refresh start lastEmit : ℕ)

/-- The loop ends in this iteration. -/
def Iteration.Ends (it : Iteration) : Prop := it.shutdown = true ∨ d ≤ it.now - start

lemma headlessLoop_some_cons (it : Iteration) (its : List Iteration) :
    (it.Ends d start → headlessLoop (some d) refresh start lastEmit (it :: its) = [it.summary]) ∧
      (¬ it.Ends d start → headlessLoop (some d) refresh start lastEmit (it :: its) =
        headlessLoop (some d) refresh start lastEmit its) := by
  unfold Iteration.Ends
  rw [headlessLoop]
  constructor
  · rintro (hshutdown | hover)
    · rw [if_pos hshutdown]
    · rw [if_pos hover, ite_self]
  · intro hgoes
    rw [not_or] at hgoes
    rw [if_neg hgoes.1, if_neg hgoes.2]

/-- The summary is that of the first iteration in which the loop ends. -/
lemma headlessLoop_some (its : List Iteration) :
    (headlessLoop (some d) refresh start lastEmit its = [] ∧ ∀ it ∈ its, ¬ it.Ends d start) ∨
      ∃ before it after, its = before ++ it :: after ∧ (∀ it' ∈ before, ¬ it'.Ends d start) ∧
        it.Ends d start ∧ headlessLoop (some d) refresh start lastEmit its = [it.summary] := by
  induction its with
  | nil => exact Or.inl ⟨rfl, fun it hit => absurd hit List.not_mem_nil⟩
  | cons it its ih =>
    obtain ⟨hend, hgo⟩ := headlessLoop_some_cons d refresh start lastEmit it its
    by_cases hits : it.Ends d start
    · exact Or.inr ⟨[], it, its, rfl, fun it' hit' => absurd hit' List.not_mem_nil, hits, hend hits⟩
    · rw [hgo hits]
      rcases ih with ⟨hnil, hall⟩ | ⟨before, last, after, rfl, hbefore, hlast, hone⟩
      · exact Or.inl ⟨hnil, List.forall_mem_cons.mpr ⟨hits, hall⟩⟩
      · exact Or.inr ⟨it :: before, last, after, rfl, List.forall_mem_cons.mpr ⟨hits, hbefore⟩,
          hlast, hone⟩

/-- **A run with a duration prints once.**  As long as no iteration has found the window over or
the shutdown flag set, nothing is printed.  In the first one that does, the loop prints one
summary and ends; it accounts for everything that was written before that iteration's poll, and
unless it was told to stop it reports an uptime of at least the window. -/
theorem duration_prints_once (subject : Subject) (target : Target) (past : List Firing)
    (ticks : List HeadlessTick) :
    let ends := fun p : HeadlessTick × Tables => p.1.shutdown = true ∨ d ≤ p.1.now - start
    let out := HeadlessTick.run subject target past (some d) refresh start lastEmit ticks
    (out = [] ∧ ∀ p ∈ HeadlessTick.seen target past ticks, ¬ ends p) ∨
      ∃ before p after, HeadlessTick.seen target past ticks = before ++ p :: after ∧
        (∀ q ∈ before, ¬ ends q) ∧ ends p ∧ out = [HeadlessTick.summary subject start p] ∧
        SeenBy HeadlessTick.activity target past ticks p ∧
        (p.1.shutdown = false → d ≤ p.1.built - start) := by
  intro ends out
  have hends : ∀ p, ends p ↔ (HeadlessTick.observe subject start p).Ends d start := fun _ => Iff.rfl
  rcases headlessLoop_some d refresh start lastEmit
      ((HeadlessTick.seen target past ticks).map (HeadlessTick.observe subject start)) with
    ⟨hnil, hall⟩ | ⟨before, it, after, hsplit, hbefore, hit, hone⟩
  · refine Or.inl ⟨hnil, fun p hp => ?_⟩
    rw [hends]
    exact hall _ (List.mem_map_of_mem hp)
  · obtain ⟨before', rest, hseen, rfl, hrest⟩ := List.map_eq_append_iff.mp hsplit
    obtain ⟨p, after', rfl, rfl, rfl⟩ := List.map_eq_cons_iff.mp hrest
    have hmem : p ∈ HeadlessTick.seen target past ticks := by
      rw [hseen]
      exact List.mem_append_right _ List.mem_cons_self
    refine Or.inr ⟨before', p, after', hseen, fun q hq => ?_, (hends p).mpr hit, hone,
      seenBy_of_mem_polled hmem, fun hrunning => ?_⟩
    · rw [hends]
      exact hbefore _ (List.mem_map_of_mem hq)
    · have hover : d ≤ p.1.now - start := by
        rcases hit with hshutdown | hover
        · exact absurd (hrunning.symm.trans hshutdown) Bool.false_ne_true
        · exact hover
      have hbuilt := p.1.now_le_built
      omega

end Duration

/-! ## Streaming -/

section Streaming
variable (refresh start lastEmit : ℕ)

/-- A streaming run throttles what it prints until it is told to stop, and prints a last
summary then. -/
lemma headlessLoop_none (its : List Iteration) :
    headlessLoop none refresh start lastEmit its =
      ((throttle Iteration.now Iteration.printed refresh lastEmit
        (its.takeWhile fun it => !it.shutdown)) ++ (its.find? Iteration.shutdown).toList).map
          Iteration.summary := by
  induction its generalizing lastEmit with
  | nil => rfl
  | cons it its ih =>
    cases hit : it.shutdown with
    | true => simp [headlessLoop, hit, throttle]
    | false =>
      simp only [headlessLoop, hit, Bool.false_eq_true, if_false, List.takeWhile_cons,
        Bool.not_false, if_true, throttle, List.find?_cons]
      split
      · rw [ih, List.cons_append, List.map_cons]
      · exact ih lastEmit

namespace HeadlessTick

variable (target : Target) (past : List Firing) (ticks : List HeadlessTick)

/-- The iterations before the one that is told to stop. -/
def running : List (HeadlessTick × Tables) := (seen target past ticks).takeWhile fun p => !p.1.shutdown

/-- The iterations that print a periodic summary. -/
def periodic (l : List (HeadlessTick × Tables)) : List (HeadlessTick × Tables) :=
  throttle (fun p => p.1.now) (fun p => p.1.printed) refresh lastEmit l

/-- The iterations that print. -/
def shown : List (HeadlessTick × Tables) :=
  periodic refresh lastEmit (running target past ticks) ++
    ((seen target past ticks).find? fun p => p.1.shutdown).toList

lemma run_none (subject : Subject) :
    run subject target past none refresh start lastEmit ticks =
      (shown refresh lastEmit target past ticks).map (summary subject start) := by
  have hsummary : Iteration.summary ∘ observe subject start = summary subject start := rfl
  rw [run, headlessRun, headlessLoop_none, List.takeWhile_map, throttle_map, List.find?_map,
    Option.toList_map, ← List.map_append, List.map_map, hsummary]
  rfl

omit target past ticks in
/-- The iterations before the stop, and the stop. -/
lemma takeWhile_append_find?_sublist (l : List (HeadlessTick × Tables)) :
    (l.takeWhile (fun p => !p.1.shutdown) ++ (l.find? fun p => p.1.shutdown).toList).Sublist l := by
  induction l with
  | nil => exact List.Sublist.slnil
  | cons p l ih =>
    cases hp : p.1.shutdown with
    | true => simp [hp]
    | false => simpa [hp] using ih

lemma shown_sublist : (shown refresh lastEmit target past ticks).Sublist (seen target past ticks) := by
  have hthrottled : (periodic refresh lastEmit (running target past ticks)).Sublist
      (running target past ticks) := throttle_sublist lastEmit _
  exact (hthrottled.append_right _).trans (takeWhile_append_find?_sublist _)

lemma running_isChain {δ : ℕ}
    (hsteady : (lastEmit :: ticks.map now).IsChain fun s t => t ≤ s + δ) :
    (lastEmit :: (seen target past ticks).map fun p => p.1.now).IsChain fun s t => t ≤ s + δ := by
  refine isChain_of_isPrefix hsteady (List.cons_prefix_cons.mpr ⟨rfl, ?_⟩)
  have hprefix := (fst_polled_isPrefix activity (.started target past) ticks).map now
  rwa [List.map_map] at hprefix

end HeadlessTick

/-- **Streaming follows the trace.**  The summaries are built in some of the iterations, in order.
Each accounts for everything that was written before its iteration's poll; the numbers of calls,
kernel allocations and frees are no less than in a summary before, and each file row is still
there; and until the clock reads `bound` there are at most as many as refresh intervals have
passed, and a final one. -/
theorem streaming_follows_the_trace (subject : Subject) (target : Target) (past : List Firing)
    (ticks : List HeadlessTick) :
    ∃ shown : List (HeadlessTick × Tables),
      HeadlessTick.run subject target past none refresh start lastEmit ticks =
        shown.map (HeadlessTick.summary subject start) ∧
      shown.Sublist (HeadlessTick.seen target past ticks) ∧
      (∀ p ∈ shown, SeenBy HeadlessTick.activity target past ticks p) ∧
      (shown.Pairwise fun p p' => p.2.Grows p'.2) ∧
      ∀ bound, (∀ tick ∈ ticks, tick.now ≤ bound) →
        (shown.length - 1) * refresh ≤ bound - lastEmit := by
  have hsublist := HeadlessTick.shown_sublist refresh lastEmit target past ticks
  refine ⟨_, HeadlessTick.run_none refresh start lastEmit target past ticks subject, hsublist,
    fun p hp => seenBy_of_mem_polled (hsublist.subset hp), (grows_polled _ _).sublist hsublist,
    fun bound hbound => ?_⟩
  have hnow : ∀ p ∈ HeadlessTick.running target past ticks, p.1.now ≤ bound := by
    intro p hp
    apply hbound
    apply (fst_polled_isPrefix HeadlessTick.activity (.started target past) ticks).subset
    exact List.mem_map_of_mem ((List.takeWhile_sublist _).subset hp)
  have hfew : (HeadlessTick.periodic refresh lastEmit
      (HeadlessTick.running target past ticks)).length * refresh ≤ bound - lastEmit :=
    length_throttle_mul_le (fun p _ => HeadlessTick.now_le_printed p.1) hnow
  have hlength : (HeadlessTick.shown refresh lastEmit target past ticks).length - 1 ≤
      (HeadlessTick.periodic refresh lastEmit (HeadlessTick.running target past ticks)).length := by
    rw [HeadlessTick.shown, List.length_append]
    have hone : ((HeadlessTick.seen target past ticks).find? fun p => p.1.shutdown).toList.length ≤ 1 := by
      cases (HeadlessTick.seen target past ticks).find? fun p => p.1.shutdown <;> simp
    omega
  exact (Nat.mul_le_mul_right refresh hlength).trans hfew

/-- **Streaming is prompt.**  If no iteration takes longer than `δ`, then in each iteration up to
the stop, the last of the summaries printed in the iterations before it is at most
`refresh + δ` old. -/
theorem streaming_is_prompt (subject : Subject) (target : Target) (past : List Firing) {δ : ℕ}
    {ticks : List HeadlessTick} {before after : List (HeadlessTick × Tables)}
    {p : HeadlessTick × Tables}
    (hsteady : (lastEmit :: ticks.map HeadlessTick.now).IsChain fun s t => t ≤ s + δ)
    (hseen : HeadlessTick.seen target past ticks = before ++ p :: after)
    (hrunning : ∀ q ∈ before, q.1.shutdown = false) (hp : p.1.shutdown = false) :
    ∃ old new : List (HeadlessTick × Tables),
      HeadlessTick.run subject target past none refresh start lastEmit ticks =
        (old ++ new).map (HeadlessTick.summary subject start) ∧
      old.Sublist before ∧ new.Sublist (p :: after) ∧
      p.1.now ≤ (old.getLast?.map fun q => q.1.printed).getD lastEmit + refresh + δ := by
  set rest := after.takeWhile fun q => !q.1.shutdown with hrest
  have hbefore : HeadlessTick.running target past ticks = before ++ p :: rest := by
    rw [HeadlessTick.running, hseen,
      List.takeWhile_append_of_pos fun q hq => by simp [hrunning q hq], List.takeWhile_cons,
      if_pos (by simp [hp])]
  have hstop : (HeadlessTick.seen target past ticks).find? (fun q => q.1.shutdown) =
      after.find? fun q => q.1.shutdown := by
    have hnone : before.find? (fun q => q.1.shutdown) = none :=
      List.find?_eq_none.mpr fun q hq => by simp [hrunning q hq]
    rw [hseen, List.find?_append, hnone, Option.none_or, List.find?_cons, hp]
  set mark := throttleMark (fun q : HeadlessTick × Tables => q.1.now) (fun q => q.1.printed)
    refresh lastEmit before with hmark
  refine ⟨HeadlessTick.periodic refresh lastEmit before,
    HeadlessTick.periodic refresh mark (p :: rest) ++ (after.find? fun q => q.1.shutdown).toList,
    ?_, throttle_sublist _ _, ?_, ?_⟩
  · rw [HeadlessTick.run_none, HeadlessTick.shown, hbefore, hstop, HeadlessTick.periodic,
      throttle_append, List.append_assoc]
    rfl
  · refine ((throttle_sublist _ _).append_right _).trans ?_
    exact (HeadlessTick.takeWhile_append_find?_sublist after).cons_cons p
  · have hchain := HeadlessTick.running_isChain lastEmit target past ticks hsteady
    rw [hseen] at hchain
    have hle : p.1.now ≤ mark + refresh + δ := now_le_mark
      (fun q _ => HeadlessTick.now_le_printed q.1) (Nat.le_add_right lastEmit refresh) hchain
    rwa [hmark, throttleMark_eq] at hle

end Streaming

/-- An iteration at `now`, on an idle target. -/
def quietTick (now : ℕ) : HeadlessTick where
  activity := { idle := [], acts := List.replicate 4 .next }
  shutdown := false
  now
  built := now
  printed := now
  now_le_built := le_rfl
  built_le_printed := le_rfl
  files := fun _ => none
  order := .latestFirst

def quietSubject : Subject where
  label := "PID 1".toList
  memoryTarget := .Pid 1
  names := fun _ => none

theorem streaming_is_prompt_quietTick :
    ∃ old new : List (HeadlessTick × Tables),
      HeadlessTick.run quietSubject (.Pid 1) [] none 1000 0 0 [quietTick 500, quietTick 1000] =
        (old ++ new).map (HeadlessTick.summary quietSubject 0) ∧
      old.Sublist [(quietTick 500, {})] ∧ new.Sublist [(quietTick 1000, {})] ∧
      1000 ≤ (old.getLast?.map fun q => q.1.printed).getD 0 + 1000 + 500 :=
  streaming_is_prompt 1000 0 0 quietSubject (.Pid 1) [] (by simp [quietTick]) rfl
    (by simp [quietTick]) rfl

end Peekbeam

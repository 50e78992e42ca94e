import Mathlib.Logic.Function.Iterate
import Peekbeam.Foundation.Throttle
import Peekbeam.PollLoops
import Peekbeam.Tui

/-!
# Runs of the TUI

`run_loop` handles an event of the terminal, polls the rings and, if a refresh interval has
passed, draws the panel of the chosen view.  An iteration is given by what it observes (`TuiTick`);
its effect on the variables of the loop is `TuiState.step`.

The frames of a run are those iterations that the loop reaches, throttled (`tuiLoop_frames`).
Hence each shows the view that the keys pressed before it select, and tables that account for the
whole trace up to then, whatever was on the screen meanwhile (`frames_follow_the_keys`); they are
neither too many nor too far apart (`frames_are_paced`).  The loop is left exactly by a quit key
or a signal, at once (`quits_iff`).
-/

namespace Peekbeam

open History

/-! ## Keys -/

inductive KeyCode
  | Char (c : Char)
  | Esc
  | Tab
  /-- Any other key. -/
  | Other
  deriving DecidableEq

inductive KeyEventKind
  | Press
  | Repeat
  | Release
  deriving DecidableEq

structure KeyEvent where
  code : KeyCode
  /-- `modifiers.contains(CONTROL)`. -/
  control : Bool
  kind : KeyEventKind
  deriving DecidableEq

/-- An event of the terminal: a key, or anything else. -/
inductive TermEvent
  | Key (key : KeyEvent)
  | Other

def View.next : View → View
  | .Syscalls => .Network
  | .Network => .Memory
  | .Memory => .Files
  | .Files => .Syscalls

def SortBy.toggle : SortBy → SortBy
  | .Count => .Time
  | .Time => .Count

/-- What the keys select. -/
structure Ui where
  view : View := .Syscalls
  sortBy : SortBy := .Time

/-- The effect of a key press; `none` leaves the loop. -/
def Ui.press (ui : Ui) (key : KeyEvent) : Option Ui :=
  match key.code with
  | .Char c =>
    if c = 'q' then none
    else if c = 'c' ∧ key.control then none
    else if c = 's' ∧ ui.view = .Syscalls then some { ui with sortBy := ui.sortBy.toggle }
    else some ui
  | .Esc => none
  | .Tab => some { ui with view := ui.view.next }
  | .Other => some ui

/-- The key that an event presses. -/
def TermEvent.pressed : TermEvent → Option KeyEvent
  | .Key key => if key.kind = .Press then some key else none
  | .Other => none

/-- The effect of what was read from the terminal, if anything was. -/
def Ui.handle (ui : Ui) (event : Option TermEvent) : Option Ui :=
  match event.bind TermEvent.pressed with
  | some key => ui.press key
  | none => some ui

/-! ## The loop -/

/-- One iteration of `run_loop`.  The clock is read up to three times, and never goes back. -/
structure TuiTick where
  /-- `signals::requested`. -/
  shutdown : Bool
  /-- `event::poll` and `event::read`. -/
  event : Except Text (Option TermEvent)
  activity : Activity
  /-- The clock when `elapsed` is asked for. -/
  now : ℕ
  /-- The clock when the uptime is asked for. -/
  built : ℕ
  /-- The clock after a panel was drawn. -/
  drawn : ℕ
  now_le_built : now ≤ built
  built_le_drawn : built ≤ drawn
  /-- What drawing fails with, if it fails. -/
  drawError : Option Text
  files : Files
  order : HashOrder

/-- A frame: the iteration that draws it, with what the keys have selected, and the tables. -/
abbrev Frame := (TuiTick × Ui) × Tables

namespace TuiTick

lemma now_le_drawn (tick : TuiTick) : tick.now ≤ tick.drawn :=
  tick.now_le_built.trans tick.built_le_drawn

def around (start : ℕ) (tick : TuiTick) : Surroundings where
  uptimeSecs := UInt64.ofNat ((tick.built - start) / 1000000000)
  files := tick.files
  order := tick.order

/-- The key pressed in this iteration. -/
def pressed (tick : TuiTick) : Option KeyEvent :=
  match tick.event with
  | .ok event => event.bind TermEvent.pressed
  | .error _ => none

end TuiTick

/-- What is on the screen. -/
def Frame.panel (fixed : ℕ → Float → Text) (subject : Subject) (start : ℕ) (f : Frame) : Panel :=
  drawView fixed subject f.1.2.view f.1.2.sortBy (f.1.1.around start) f.2

/-- The variables of the loop, and the two sides it polls. -/
structure TuiState where
  tracer : Tracer
  ui : Ui := {}
  lastDraw : ℕ

/-- Where the loop is: between two iterations, in `poll_events`, or left. -/
inductive Status
  | Running
  | Polling
  | Quit
  | Failed (error : Text)
  deriving DecidableEq

/-- `checked_sub(refresh)`, or the instant itself.  Instants count from the first one that can be
represented. -/
def firstDraw (began refresh : ℕ) : ℕ := if refresh ≤ began then began - refresh else began

/-- The loop is entered. -/
def TuiState.start (target : Target) (past : List Firing) (began refresh : ℕ) : TuiState where
  tracer := .started target past
  lastDraw := firstDraw began refresh

/-- The body of `run_loop`. -/
def TuiState.step (refresh : ℕ) (s : TuiState) (tick : TuiTick) :
    Except Status (TuiState × Option Frame) :=
  if tick.shutdown then .error .Quit
  else
    match tick.event with
    | .error e => .error (.Failed e)
    | .ok event =>
      match s.ui.handle event with
      | none => .error .Quit
      | some ui =>
        match pollOnce (s.tracer.meanwhile tick.activity.idle) tick.activity.acts with
        | none => .error .Polling
        | some tracer =>
          if tick.now - s.lastDraw ≥ refresh then
            match tick.drawError with
            | some e => .error (.Failed e)
            | none =>
              .ok ({ tracer, ui, lastDraw := tick.drawn }, some ((tick, ui), tracer.tables))
          else .ok ({ tracer, ui, lastDraw := s.lastDraw }, none)

/-- `run_loop`: the frames, and where the loop is. -/
def tuiLoop (refresh : ℕ) : TuiState → List TuiTick → List Frame × Status
  | _, [] => ([], .Running)
  | s, tick :: ticks =>
    match s.step refresh tick with
    | .error status => ([], status)
    | .ok (s, frame) =>
      let (frames, status) := tuiLoop refresh s ticks
      (frame.toList ++ frames, status)

/-! ## Leaving the loop -/

/-- `q`, Esc or Ctrl+C. -/
def KeyEvent.Quits (key : KeyEvent) : Prop :=
  key.code = .Char 'q' ∨ key.code = .Esc ∨ key.code = .Char 'c' ∧ key.control = true

instance (key : KeyEvent) : Decidable key.Quits := inferInstanceAs (Decidable (_ ∨ _ ∨ _ ∧ _))

/-- A signal has arrived, or a quit key is pressed. -/
def TuiTick.Quits (tick : TuiTick) : Prop :=
  tick.shutdown = true ∨ ∃ key ∈ tick.pressed, key.Quits

lemma press_eq_none_iff {ui : Ui} {key : KeyEvent} : ui.press key = none ↔ key.Quits := by
  unfold Ui.press KeyEvent.Quits
  cases key.code with
  | Char c =>
    dsimp only
    split
    · simp_all
    · split
      · simp_all
      · split <;> simp_all
  | Esc | Tab | Other => simp

lemma handle_eq_none_iff {ui : Ui} {event : Option TermEvent} :
    ui.handle event = none ↔ ∃ key ∈ event.bind TermEvent.pressed, key.Quits := by
  unfold Ui.handle
  cases event.bind TermEvent.pressed with
  | none => simp
  | some key => simp [press_eq_none_iff]

/-- One iteration leaves the loop exactly if it quits. -/
lemma step_eq_quit_iff {refresh : ℕ} {s : TuiState} {tick : TuiTick} :
    s.step refresh tick = .error .Quit ↔ tick.Quits := by
  unfold TuiState.step TuiTick.Quits TuiTick.pressed
  cases hshutdown : tick.shutdown with
  | true => simp
  | false =>
    cases hevent : tick.event with
    | error e => simp
    | ok event =>
      dsimp only
      cases hhandle : s.ui.handle event with
      | none => simpa using handle_eq_none_iff.mp hhandle
      | some ui =>
        have hstays : ¬ ∃ key ∈ event.bind TermEvent.pressed, key.Quits := by
          rw [← @handle_eq_none_iff s.ui, hhandle]
          exact Option.some_ne_none ui
        simp only [Bool.false_eq_true, if_false, false_or, hstays, iff_false]
        cases pollOnce (s.tracer.meanwhile tick.activity.idle) tick.activity.acts with
        | none => simp
        | some tracer =>
          dsimp only
          split
          · cases tick.drawError <;> simp
          · simp

lemma tuiLoop_cons_ok {refresh : ℕ} {s s' : TuiState} {tick : TuiTick} {frame : Option Frame}
    (h : s.step refresh tick = .ok (s', frame)) (ticks : List TuiTick) :
    tuiLoop refresh s (tick :: ticks) =
      (frame.toList ++ (tuiLoop refresh s' ticks).1, (tuiLoop refresh s' ticks).2) := by
  rw [tuiLoop, h]

lemma tuiLoop_cons_error {refresh : ℕ} {s : TuiState} {tick : TuiTick} {status : Status}
    (h : s.step refresh tick = .error status) (ticks : List TuiTick) :
    tuiLoop refresh s (tick :: ticks) = ([], status) := by
  rw [tuiLoop, h]

lemma step_ne_running {refresh : ℕ} {s : TuiState} {tick : TuiTick} :
    s.step refresh tick ≠ .error .Running := by
  unfold TuiState.step
  split
  · simp
  · split
    · simp
    · split
      · simp
      · split
        · simp
        · split
          · split <;> simp
          · simp

/-- **The loop is left by a quit key or a signal, and at once.**  It has been quit exactly if,
running, it came to an iteration with one of them; nothing is drawn in that iteration or after. -/
theorem quits_iff (refresh : ℕ) (s : TuiState) (ticks : List TuiTick) :
    (tuiLoop refresh s ticks).2 = .Quit ↔
      ∃ before tick after, ticks = before ++ tick :: after ∧
        (tuiLoop refresh s before).2 = .Running ∧ tick.Quits ∧
        (tuiLoop refresh s ticks).1 = (tuiLoop refresh s before).1 := by
  induction ticks generalizing s with
  | nil => simp [tuiLoop]
  | cons tick ticks ih =>
    cases hstep : s.step refresh tick with
    | error status =>
      rw [tuiLoop_cons_error hstep]
      constructor
      · intro hquit
        obtain rfl : status = .Quit := hquit
        exact ⟨[], tick, ticks, rfl, rfl, step_eq_quit_iff.mp hstep, rfl⟩
      · rintro ⟨before, tick', after, hsplit, hrunning, hquits, -⟩
        cases before with
        | nil =>
          obtain ⟨rfl, rfl⟩ := List.cons_eq_cons.mp hsplit
          exact Except.error.inj (hstep.symm.trans (step_eq_quit_iff.mpr hquits))
        | cons first before =>
          obtain ⟨rfl, rfl⟩ := List.cons_eq_cons.mp hsplit
          rw [tuiLoop_cons_error hstep] at hrunning
          obtain rfl : status = .Running := hrunning
          exact absurd hstep step_ne_running
    | ok next =>
      obtain ⟨s', frame⟩ := next
      rw [tuiLoop_cons_ok hstep, ih]
      constructor
      · rintro ⟨before, tick', after, rfl, hrunning, hquits, hframes⟩
        refine ⟨tick :: before, tick', after, rfl, ?_, hquits, ?_⟩
        · rw [tuiLoop_cons_ok hstep]
          exact hrunning
        · rw [tuiLoop_cons_ok hstep, hframes]
      · rintro ⟨before, tick', after, hsplit, hrunning, hquits, hframes⟩
        cases before with
        | nil =>
          obtain ⟨rfl, rfl⟩ := List.cons_eq_cons.mp hsplit
          rw [step_eq_quit_iff.mpr hquits] at hstep
          simp at hstep
        | cons first before =>
          obtain ⟨rfl, rfl⟩ := List.cons_eq_cons.mp hsplit
          rw [tuiLoop_cons_ok hstep] at hrunning hframes
          exact ⟨before, tick', after, rfl, hrunning, hquits, List.append_cancel_left hframes⟩

/-! ## What the keys select -/

/-- The keys pressed in some iterations. -/
def pressedIn (ticks : List TuiTick) : List KeyEvent := ticks.filterMap TuiTick.pressed

/-- How often Tab was pressed. -/
def tabs (keys : List KeyEvent) : ℕ := keys.countP fun key => key.code = .Tab

/-- The presses of `s` while the first view was selected. -/
def sorts (keys : List KeyEvent) : List KeyEvent :=
  collect (fun pre key =>
    if key.code = .Char 's' ∧ View.next^[tabs pre] .Syscalls = .Syscalls then [key] else []) keys

lemma sorts_concat (keys : List KeyEvent) (key : KeyEvent) :
    sorts (keys ++ [key]) = sorts keys ++
      if key.code = .Char 's' ∧ View.next^[tabs keys] .Syscalls = .Syscalls then [key] else [] :=
  collect_concat _ _ _

/-- What some keys select. -/
def Ui.ofKeys (keys : List KeyEvent) : Ui where
  view := View.next^[tabs keys] .Syscalls
  sortBy := SortBy.toggle^[(sorts keys).length] .Time

/-- One more key. -/
lemma press_ofKeys {keys : List KeyEvent} {key : KeyEvent} {ui : Ui}
    (h : (Ui.ofKeys keys).press key = some ui) : ui = Ui.ofKeys (keys ++ [key]) := by
  have htabs : tabs (keys ++ [key]) = tabs keys + if key.code = .Tab then 1 else 0 := by
    simp [tabs, List.countP_append]
  unfold Ui.ofKeys
  rw [htabs, sorts_concat]
  unfold Ui.press at h
  cases hcode : key.code with
  | Tab =>
    simp only [hcode, Option.some.injEq] at h
    simp [← h, Ui.ofKeys, Function.iterate_succ_apply']
  | Other =>
    simp only [hcode, Option.some.injEq] at h
    simp [← h, Ui.ofKeys]
  | Esc => simp [hcode] at h
  | Char c =>
    simp only [hcode] at h
    split at h
    · simp at h
    · split at h
      · simp at h
      · split at h
        · rename_i hsort
          obtain ⟨rfl, hview⟩ := hsort
          have hview : View.next^[tabs keys] .Syscalls = .Syscalls := hview
          simp only [Option.some.injEq] at h
          simp [← h, Ui.ofKeys, hview, Function.iterate_succ_apply']
        · rename_i hsort
          have hsort : ¬ (c = 's' ∧ View.next^[tabs keys] .Syscalls = .Syscalls) := hsort
          simp only [Option.some.injEq] at h
          simp [← h, Ui.ofKeys, hsort]

/-- One more iteration. -/
lemma handle_ofKeys {ticks : List TuiTick} {tick : TuiTick} {event : Option TermEvent} {ui : Ui}
    (hevent : tick.event = .ok event) (h : (Ui.ofKeys (pressedIn ticks)).handle event = some ui) :
    ui = Ui.ofKeys (pressedIn (ticks ++ [tick])) := by
  have hpressed : pressedIn (ticks ++ [tick]) =
      pressedIn ticks ++ (event.bind TermEvent.pressed).toList := by
    rw [pressedIn, List.filterMap_append, ← pressedIn]
    simp only [List.filterMap_cons, List.filterMap_nil, TuiTick.pressed, hevent]
    cases event.bind TermEvent.pressed <;> rfl
  rw [hpressed]
  unfold Ui.handle at h
  cases hkey : event.bind TermEvent.pressed with
  | none =>
    rw [hkey] at h
    rw [Option.toList_none, List.append_nil, Option.some.inj h]
  | some key =>
    rw [hkey] at h
    exact press_ofKeys h

/-! ## Frames -/

/-- What an iteration has selected when it comes to polling, if it does. -/
def TuiTick.select (tick : TuiTick) (ui : Ui) : Option Ui :=
  if tick.shutdown then none
  else
    match tick.event with
    | .error _ => none
    | .ok event => ui.handle event

/-- The iterations that come to polling, with what is selected then. -/
def polling : Ui → List TuiTick → List (TuiTick × Ui)
  | _, [] => []
  | ui, tick :: ticks =>
    match tick.select ui with
    | none => []
    | some ui => (tick, ui) :: polling ui ticks

/-- The iterations of the loop, with the tables after their poll. -/
def TuiState.iterations (s : TuiState) (ticks : List TuiTick) : List Frame :=
  polled (fun r => r.1.activity) s.tracer (polling s.ui ticks)

/-- Those that draw. -/
def drawing (refresh lastDraw : ℕ) (iterations : List Frame) : List Frame :=
  throttle (fun f => f.1.1.now) (fun f => f.1.1.drawn) refresh lastDraw iterations

/-- What one iteration does: it leaves the loop or is stuck in it, or polls and draws if it is
time. -/
lemma step_cases (refresh : ℕ) (s : TuiState) (tick : TuiTick) :
    (∃ status, s.step refresh tick = .error status ∧
      (tick.select s.ui = none ∨ ∃ ui, tick.select s.ui = some ui ∧
        (pollOnce (s.tracer.meanwhile tick.activity.idle) tick.activity.acts = none ∨
          ∃ tracer, pollOnce (s.tracer.meanwhile tick.activity.idle) tick.activity.acts =
            some tracer ∧ tick.now - s.lastDraw ≥ refresh ∧ tick.drawError.isNone = false))) ∨
    ∃ ui tracer, tick.select s.ui = some ui ∧
      pollOnce (s.tracer.meanwhile tick.activity.idle) tick.activity.acts = some tracer ∧
      (tick.now - s.lastDraw ≥ refresh ∧ tick.drawError.isNone = true ∧
          s.step refresh tick =
            .ok ({ tracer, ui, lastDraw := tick.drawn }, some ((tick, ui), tracer.tables)) ∨
        ¬ tick.now - s.lastDraw ≥ refresh ∧
          s.step refresh tick = .ok ({ tracer, ui, lastDraw := s.lastDraw }, none)) := by
  unfold TuiState.step TuiTick.select
  cases tick.shutdown with
  | true => exact Or.inl ⟨_, rfl, Or.inl rfl⟩
  | false =>
    cases tick.event with
    | error e => exact Or.inl ⟨_, rfl, Or.inl rfl⟩
    | ok event =>
      simp only [Bool.false_eq_true, if_false]
      cases s.ui.handle event with
      | none => exact Or.inl ⟨_, rfl, Or.inl rfl⟩
      | some ui =>
        dsimp only
        cases pollOnce (s.tracer.meanwhile tick.activity.idle) tick.activity.acts with
        | none => exact Or.inl ⟨_, rfl, Or.inr ⟨ui, rfl, Or.inl rfl⟩⟩
        | some tracer =>
          dsimp only
          by_cases hdue : tick.now - s.lastDraw ≥ refresh
          · rw [if_pos hdue]
            cases tick.drawError with
            | some e => exact Or.inl ⟨_, rfl, Or.inr ⟨ui, rfl, Or.inr ⟨tracer, rfl, hdue, rfl⟩⟩⟩
            | none => exact Or.inr ⟨ui, tracer, rfl, rfl, Or.inl ⟨hdue, rfl, rfl⟩⟩
          · rw [if_neg hdue]
            exact Or.inr ⟨ui, tracer, rfl, rfl, Or.inr ⟨hdue, rfl⟩⟩

lemma iterations_cons_of_select {s : TuiState} {tick : TuiTick} (h : tick.select s.ui = none)
    (ticks : List TuiTick) : s.iterations (tick :: ticks) = [] := by
  simp [TuiState.iterations, polling, h, polled]

lemma iterations_cons_of_poll {s : TuiState} {tick : TuiTick} {ui : Ui}
    (h : tick.select s.ui = some ui)
    (hpoll : pollOnce (s.tracer.meanwhile tick.activity.idle) tick.activity.acts = none)
    (ticks : List TuiTick) : s.iterations (tick :: ticks) = [] := by
  simp [TuiState.iterations, polling, h, polled, hpoll]

lemma iterations_cons {s : TuiState} {tick : TuiTick} {ui : Ui} {tracer : Tracer}
    (h : tick.select s.ui = some ui)
    (hpoll : pollOnce (s.tracer.meanwhile tick.activity.idle) tick.activity.acts = some tracer)
    (lastDraw : ℕ) (ticks : List TuiTick) :
    s.iterations (tick :: ticks) =
      ((tick, ui), tracer.tables) :: TuiState.iterations { tracer, ui, lastDraw } ticks := by
  simp [TuiState.iterations, polling, h, polled, hpoll]

/-- **The frames are the iterations, throttled**, up to the first one that cannot be drawn. -/
lemma tuiLoop_frames (refresh : ℕ) (s : TuiState) (ticks : List TuiTick) :
    (tuiLoop refresh s ticks).1 =
      (drawing refresh s.lastDraw (s.iterations ticks)).takeWhile
        fun f => f.1.1.drawError.isNone := by
  induction ticks generalizing s with
  | nil => rfl
  | cons tick ticks ih =>
    rcases step_cases refresh s tick with ⟨status, hstep, hleft⟩ |
      ⟨ui, tracer, hselect, hpoll, ⟨hdue, hdrawn, hstep⟩ | ⟨hdue, hstep⟩⟩
    · rw [tuiLoop_cons_error hstep]
      rcases hleft with hselect | ⟨ui, hselect, hpoll | ⟨tracer, hpoll, hdue, hfails⟩⟩
      · rw [iterations_cons_of_select hselect]
        rfl
      · rw [iterations_cons_of_poll hselect hpoll]
        rfl
      · rw [iterations_cons hselect hpoll s.lastDraw, drawing, throttle, if_pos hdue,
          List.takeWhile_cons, if_neg (by simp [hfails])]
    · rw [tuiLoop_cons_ok hstep, iterations_cons hselect hpoll tick.drawn, drawing, throttle,
        if_pos hdue, List.takeWhile_cons, if_pos hdrawn, ih]
      rfl
    · rw [tuiLoop_cons_ok hstep, iterations_cons hselect hpoll s.lastDraw, drawing, throttle,
        if_neg hdue, ih]
      rfl

/-- As long as the loop is running, every iteration came to polling, and was drawn if it was
time. -/
lemma tuiLoop_running {refresh : ℕ} {s : TuiState} {ticks : List TuiTick}
    (h : (tuiLoop refresh s ticks).2 = .Running) :
    (s.iterations ticks).map (fun f => f.1.1) = ticks ∧
      (tuiLoop refresh s ticks).1 = drawing refresh s.lastDraw (s.iterations ticks) := by
  induction ticks generalizing s with
  | nil => exact ⟨rfl, rfl⟩
  | cons tick ticks ih =>
    rcases step_cases refresh s tick with ⟨status, hstep, -⟩ |
      ⟨ui, tracer, hselect, hpoll, ⟨hdue, -, hstep⟩ | ⟨hdue, hstep⟩⟩
    · rw [tuiLoop_cons_error hstep] at h
      obtain rfl : status = .Running := h
      exact absurd hstep step_ne_running
    · rw [tuiLoop_cons_ok hstep] at h
      obtain ⟨hall, hframes⟩ := ih h
      rw [tuiLoop_cons_ok hstep, iterations_cons hselect hpoll tick.drawn, List.map_cons, hall,
        hframes, drawing, drawing, throttle, if_pos hdue]
      exact ⟨rfl, rfl⟩
    · rw [tuiLoop_cons_ok hstep] at h
      obtain ⟨hall, hframes⟩ := ih h
      rw [tuiLoop_cons_ok hstep, iterations_cons hselect hpoll s.lastDraw, List.map_cons, hall,
        hframes, drawing, drawing, throttle, if_neg hdue]
      exact ⟨rfl, rfl⟩

/-- What is selected in an iteration is what the keys up to then select. -/
lemma select_ofKeys {ticks : List TuiTick} {tick : TuiTick} {ui : Ui}
    (h : tick.select (Ui.ofKeys (pressedIn ticks)) = some ui) :
    ui = Ui.ofKeys (pressedIn (ticks ++ [tick])) ∧ ¬ tick.Quits := by
  unfold TuiTick.select at h
  cases hshutdown : tick.shutdown with
  | true => simp [hshutdown] at h
  | false =>
    cases hevent : tick.event with
    | error e => simp [hshutdown, hevent] at h
    | ok event =>
      simp only [hshutdown, hevent, Bool.false_eq_true, if_false] at h
      refine ⟨handle_ofKeys hevent h, ?_⟩
      rintro (hstop | hquits)
      · exact absurd (hshutdown.symm.trans hstop) Bool.false_ne_true
      · have hkey : ∃ key ∈ event.bind TermEvent.pressed, key.Quits := by
          simpa [TuiTick.pressed, hevent] using hquits
        exact absurd (h.symm.trans (handle_eq_none_iff.mpr hkey)) (Option.some_ne_none ui)

lemma polling_eq {past ticks : List TuiTick} {before after : List (TuiTick × Ui)}
    {r : TuiTick × Ui} (h : polling (Ui.ofKeys (pressedIn past)) ticks = before ++ r :: after) :
    ∃ rest, ticks = before.map Prod.fst ++ r.1 :: rest ∧
      r.2 = Ui.ofKeys (pressedIn (past ++ before.map Prod.fst ++ [r.1])) ∧
      ∀ tick ∈ before.map Prod.fst ++ [r.1], ¬ tick.Quits := by
  induction before generalizing past ticks with
  | nil =>
    cases ticks with
    | nil => simp [polling] at h
    | cons tick ticks =>
      unfold polling at h
      cases hselect : tick.select (Ui.ofKeys (pressedIn past)) with
      | none => simp [hselect] at h
      | some ui =>
        simp only [hselect, List.nil_append, List.cons.injEq] at h
        obtain ⟨rfl, -⟩ := h
        obtain ⟨hui, hstays⟩ := select_ofKeys hselect
        exact ⟨ticks, rfl, by simpa using hui, by simpa using hstays⟩
  | cons first before ih =>
    cases ticks with
    | nil => simp [polling] at h
    | cons tick ticks =>
      unfold polling at h
      cases hselect : tick.select (Ui.ofKeys (pressedIn past)) with
      | none => simp [hselect] at h
      | some ui =>
        simp only [hselect, List.cons_append, List.cons.injEq] at h
        obtain ⟨rfl, hrest⟩ := h
        obtain ⟨rfl, hstays⟩ := select_ofKeys hselect
        obtain ⟨rest, rfl, hui, hall⟩ := ih hrest
        refine ⟨rest, rfl, by simpa using hui, ?_⟩
        exact List.forall_mem_cons.mpr ⟨hstays, hall⟩

lemma frames_sublist (target : Target) (past : List Firing) (began refresh : ℕ)
    (ticks : List TuiTick) :
    (tuiLoop refresh (.start target past began refresh) ticks).1.Sublist
      ((TuiState.start target past began refresh).iterations ticks) := by
  rw [tuiLoop_frames]
  exact (List.takeWhile_sublist _).trans (throttle_sublist _ _)

/-- What a frame is made of. -/
lemma of_mem_frames {target : Target} {past : List Firing} {began refresh : ℕ}
    {ticks : List TuiTick} {f : Frame}
    (hf : f ∈ (tuiLoop refresh (.start target past began refresh) ticks).1) :
    ∃ before after, ticks = before ++ f.1.1 :: after ∧
      f.1.2 = Ui.ofKeys (pressedIn (before ++ [f.1.1])) ∧
      (∀ tick ∈ before ++ [f.1.1], ¬ tick.Quits) ∧
      Accounts target (past ++ firedOver TuiTick.activity before ++ f.1.1.activity.idle)
        (firedIn f.1.1.activity.acts) f.2 := by
  obtain ⟨before, after, hsplit, haccounts⟩ :=
    seenBy_of_mem_polled ((frames_sublist target past began refresh ticks).subset hf)
  obtain ⟨rest, hticks, hui, hstays⟩ := @polling_eq [] _ _ _ _ hsplit
  refine ⟨before.map Prod.fst, rest, hticks, hui, hstays, ?_⟩
  have hfired : firedOver TuiTick.activity (before.map Prod.fst) =
      firedOver (fun r : TuiTick × Ui => r.1.activity) before := by
    rw [firedOver, List.flatMap_map]
    rfl
  rw [hfired]
  exact haccounts

/-- **A frame shows what the keys select, and the whole trace.**  The view of a frame is the one
that Tab was pressed for, and its order is turned by each `s` that was pressed in the first view.
Whatever was on the screen before, its tables account for everything that was written before the
poll of its iteration; the numbers of calls, kernel allocations and frees are no less than in an
earlier frame, and each file row is still there. -/
theorem frames_follow_the_keys (target : Target) (past : List Firing) (began refresh : ℕ)
    (ticks : List TuiTick) :
    let frames := (tuiLoop refresh (.start target past began refresh) ticks).1
    (∀ f ∈ frames, ∃ before after, ticks = before ++ f.1.1 :: after ∧
      f.1.2 = Ui.ofKeys (pressedIn (before ++ [f.1.1])) ∧
      (∀ tick ∈ before ++ [f.1.1], ¬ tick.Quits) ∧
      Accounts target (past ++ firedOver TuiTick.activity before ++ f.1.1.activity.idle)
        (firedIn f.1.1.activity.acts) f.2) ∧
    frames.Pairwise fun f f' => f.2.Grows f'.2 :=
  ⟨fun _ hf => of_mem_frames hf,
    (grows_polled _ _).sublist (frames_sublist target past began refresh ticks)⟩

/-- **Frames are paced.**  They are at least a refresh interval apart; and if no iteration takes
longer than `δ`, then in each iteration of a running loop the last frame is at most
`refresh + δ` old. -/
theorem frames_are_paced (target : Target) (past : List Firing) (began refresh : ℕ)
    (ticks : List TuiTick) :
    let frames := (tuiLoop refresh (.start target past began refresh) ticks).1
    (frames.IsChain fun f f' => refresh ≤ f'.1.1.now - f.1.1.drawn) ∧
    ((tuiLoop refresh (.start target past began refresh) ticks).2 = .Running → ∀ tick δ,
      ((began :: (ticks ++ [tick]).map TuiTick.now).IsChain fun s t => t ≤ s + δ) →
      tick.now ≤ (frames.getLast?.map fun f => f.1.1.drawn).getD (firstDraw began refresh) +
        refresh + δ) := by
  intro frames
  constructor
  · show (tuiLoop refresh _ ticks).1.IsChain _
    rw [tuiLoop_frames]
    exact isChain_of_isPrefix (throttle_apart _ _) (List.takeWhile_prefix _)
  · intro hrunning tick δ hsteady
    obtain ⟨hall, hframes⟩ := tuiLoop_running hrunning
    have hticks : frames.map (fun f => f.1.1) =
        throttle TuiTick.now TuiTick.drawn refresh (firstDraw began refresh) ticks := by
      rw [← hall, throttle_map]
      exact congrArg (List.map fun f => f.1.1) hframes
    have hlast : frames.getLast?.map (fun f => f.1.1.drawn) =
        (frames.map fun f => f.1.1).getLast?.map TuiTick.drawn := by
      rw [List.getLast?_map, Option.map_map]
      rfl
    have hbegan : began ≤ firstDraw began refresh + refresh := by
      unfold firstDraw
      split <;> omega
    rw [hlast, hticks, ← throttleMark_eq]
    exact now_le_mark (fun t _ => t.now_le_drawn) hbegan hsteady

/-- An iteration at `now`, in which an event arrives and the target does nothing. -/
def quietEvent (now : ℕ) (event : Option TermEvent) : TuiTick where
  shutdown := false
  event := .ok event
  activity := { idle := [], acts := List.replicate 4 .next }
  now
  built := now
  drawn := now
  now_le_built := le_rfl
  built_le_drawn := le_rfl
  drawError := none
  files := fun _ => none
  order := .latestFirst

theorem frames_are_paced_quietEvent :
    1100 ≤ ((tuiLoop 1000 (.start (.Pid 1) [] 100 1000) [quietEvent 600 none]).1.getLast?.map
      fun f => f.1.1.drawn).getD (firstDraw 100 1000) + 1000 + 500 :=
  (frames_are_paced (.Pid 1) [] 100 1000 [quietEvent 600 none]).2 rfl (quietEvent 1100 none) 500
    (by simp [quietEvent])

end Peekbeam

import Mathlib.Tactic.Lemma

/-!
# Scripts

A script asks its environment a number of questions, each of which may depend on the answers to
those before, and then fails or returns a result.  Running it in an environment (`world`) gives
the questions that were asked (`log`) and the outcome (`result`), so both what a script does and
what it concludes can be spoken about.
-/

/-- A program that asks questions `κ`, is answered by `ρ`, and may fail with `ε`. -/
inductive Script (κ ρ ε α : Type)
  | fail (error : ε)
  | done (result : α)
  | ask (question : κ) (next : ρ → Script κ ρ ε α)

namespace Script

variable {κ ρ ε α β : Type}

/-- Nothing is asked. -/
def ofExcept : Except ε α → Script κ ρ ε α
  | .error e => .fail e
  | .ok a => .done a

def map (f : α → β) : Script κ ρ ε α → Script κ ρ ε β
  | .fail e => .fail e
  | .done a => .done (f a)
  | .ask question next => .ask question fun answer => (next answer).map f

/-- The outcome. -/
def result (world : κ → ρ) : Script κ ρ ε α → Except ε α
  | .fail e => .error e
  | .done a => .ok a
  | .ask question next => (next (world question)).result world

/-- The questions asked, in order. -/
def log (world : κ → ρ) : Script κ ρ ε α → List κ
  | .fail _ => []
  | .done _ => []
  | .ask question next => question :: (next (world question)).log world

section Run
variable (world : κ → ρ)

@[simp] lemma result_fail (e : ε) : (fail e : Script κ ρ ε α).result world = .error e := rfl
@[simp] lemma result_done (a : α) : (done a : Script κ ρ ε α).result world = .ok a := rfl
@[simp] lemma result_ask (question : κ) (next : ρ → Script κ ρ ε α) :
    (ask question next).result world = (next (world question)).result world := rfl

@[simp] lemma log_fail (e : ε) : (fail e : Script κ ρ ε α).log world = [] := rfl
@[simp] lemma log_done (a : α) : (done a : Script κ ρ ε α).log world = [] := rfl
@[simp] lemma log_ask (question : κ) (next : ρ → Script κ ρ ε α) :
    (ask question next).log world = question :: (next (world question)).log world := rfl

@[simp] lemma result_ofExcept (r : Except ε α) :
    (ofExcept r : Script κ ρ ε α).result world = r := by
  cases r <;> rfl

@[simp] lemma log_ofExcept (r : Except ε α) : (ofExcept r : Script κ ρ ε α).log world = [] := by
  cases r <;> rfl

@[simp] lemma result_map (f : α → β) (s : Script κ ρ ε α) :
    (s.map f).result world = (s.result world).map f := by
  induction s with
  | fail e => rfl
  | done a => rfl
  | ask question next ih => exact ih (world question)

@[simp] lemma log_map (f : α → β) (s : Script κ ρ ε α) : (s.map f).log world = s.log world := by
  induction s with
  | fail e => rfl
  | done a => rfl
  | ask question next ih => exact congrArg (question :: ·) (ih (world question))

end Run

end Script

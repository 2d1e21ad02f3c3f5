import RowMapper.Fault

/-!
# Actions

What an operation does to a state.  An action can fail and still have changed the state, so the
state after it is there in both cases.
-/
namespace RowMapper

/-- An action on a state: it answers or fails, and the state goes on in both cases. -/
abbrev Action (σ α : Type) := ExceptT Fault (StateM σ) α

/-- Runs an action. -/
def Action.runOn {σ α : Type} (action : Action σ α) (s : σ) : Except Fault α × σ :=
  StateT.run (ExceptT.run action) s

/-- Runs an action and answers how it ended, without failing. -/
def Action.attempt {σ α : Type} (action : Action σ α) : Action σ (Except Fault α) :=
  fun s => match action.runOn s with
    | (outcome, after) => (.ok outcome, after)

/-- An answer or a failure that is already known. -/
def Action.ofExcept {σ α : Type} : Except Fault α → Action σ α
  | .ok a => pure a
  | .error fault => throw fault

end RowMapper

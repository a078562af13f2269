import SchemaLoom.Storage.Path

/-!
# Disks

A disk is a state with the few operations a run needs.  Every operation may fail, and what a failed
operation leaves behind is up to the disk.
-/

namespace SchemaLoom.Storage

structure Disk (σ : Type) where
  /-- The text of a file, if it can be read. -/
  read : σ → Path → Option String
  /-- Make a directory and those above it, and say whether it is there. -/
  createDirs : σ → Path → σ × Bool
  /-- Give a file a new text, and say whether it has it. -/
  write : σ → Path → String → σ × Bool
  /-- Remove a file, and say whether it is gone. -/
  remove : σ → Path → σ × Bool

/-- A computation on a disk that may be broken off. -/
abbrev Action (σ ε : Type) := ExceptT ε (StateM σ)

namespace Action

variable {σ ε : Type}

/-- Do an operation; its failure breaks the computation off. -/
def attempt (error : ε) (operation : σ → σ × Bool) : Action σ ε Unit := do
  let (state, done) := operation (← get)
  set state
  if done then pure () else throw error

/-- Go on with the value of an outcome. -/
def ofOutcome {α : Type} (outcome : Except ε α) : Action σ ε α :=
  match outcome with
  | .ok value => pure value
  | .error error => throw error

/-- Name the cause of a failure otherwise. -/
def mapError {ε' α : Type} (rename : ε → ε') (action : Action σ ε α) : Action σ ε' α :=
  ExceptT.adapt rename action

/-- What a computation returns and the disk it leaves. -/
def runOn {α : Type} (action : Action σ ε α) (state : σ) : Except ε α × σ :=
  StateT.run (ExceptT.run action) state

end Action

end SchemaLoom.Storage

import Bdb.Base.Outcome

/-! # One connection to a database

A connection sees what is committed and, over it, its own writes since. A statement that
breaks a constraint writes nothing and raises; writes that nobody has committed are lost
when the connection is closed, and committed by whichever commit comes next on it.
-/
namespace Bdb

structure Connection (σ : Type) where
  committed : σ
  working : σ

namespace Connection

variable {σ α : Type}

/-- A connection with nothing uncommitted. -/
def fresh (s : σ) : Connection σ := ⟨s,s⟩

@[simp] theorem fresh_working (s : σ) : (fresh s).working = s := rfl

@[simp] theorem fresh_committed (s : σ) : (fresh s).committed = s := rfl

/-- The connection of somebody who opens the database after this one is gone. -/
def reopened (c : Connection σ) : Connection σ := fresh c.committed

/-- The rows as the connection sees them. -/
def read (view : σ → Outcome α) : Program (Connection σ) α := .observe fun c => view c.working

def execute (f : σ → Outcome σ) : Program (Connection σ) Unit :=
  .commit fun c => (f c.working).map fun t => ({ c with working := t },())

def commit : Program (Connection σ) Unit := .commit fun c => .ok (fresh c.working,())

def write (f : σ → Outcome σ) : Program (Connection σ) Unit := do
  execute f
  commit

variable {β : Type} {c : Connection σ} {s : σ}

theorem exec_read (view : σ → Outcome α) (k : α → Program (Connection σ) β) :
    (read view >>= k).exec c = match view c.working with
      | .ok a => (k a).exec c
      | .error e => (.error e,c) :=
  Program.exec_bind_observe _ k c

theorem exec_execute (f : σ → Outcome σ) (k : Unit → Program (Connection σ) β) :
    (execute f >>= k).exec c = match f c.working with
      | .ok t => (k ()).exec { c with working := t }
      | .error e => (.error e,c) := by
  refine (Program.exec_bind_commit _ k c).trans ?_
  cases f c.working <;> rfl

theorem exec_commit (k : Unit → Program (Connection σ) β) :
    (commit >>= k).exec c = (k ()).exec (fresh c.working) := rfl

theorem exec_write (f : σ → Outcome σ) (k : Unit → Program (Connection σ) β) :
    (write f >>= k).exec c = match f c.working with
      | .ok t => (k ()).exec (fresh t)
      | .error e => (.error e,c) := by
  unfold write
  rw [bind_assoc,exec_execute]
  cases f c.working <;> rfl

theorem working_write (f : σ → Outcome σ) : ((write f).exec c).2.working = match f c.working with
    | .ok t => t
    | .error _ => c.working := by
  rw [← bind_pure (write f),exec_write]
  cases f c.working <;> rfl

end Connection

end Bdb

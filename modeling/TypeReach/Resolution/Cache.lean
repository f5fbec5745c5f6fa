import TypeReach.Keyed
import TypeReach.TypeDecl

/-!
# The cache of outcomes

Every outcome of a look-up is kept, also that a type is missing or that its
artifact is corrupt.  The first outcome for a name stays.
-/

namespace TypeReach.Resolution

/-- What looking a type up gives. -/
inductive Outcome where
  | resolved (decl : TypeDecl)
  /-- No container has the type. -/
  | missing
  /-- The artifact is there and cannot be used. -/
  | corrupt (reason : String)

/-- The declaration, where there is one. -/
def Outcome.decl? : Outcome → Option TypeDecl
  | resolved decl => some decl
  | missing => none
  | corrupt _ => none

/-- How many outcomes of each kind are kept. -/
structure Counts where
  resolved : Nat
  missing : Nat
  corrupt : Nat
  deriving DecidableEq, Repr

/-- The outcomes kept so far. -/
structure Cache where
  entries : List (TypeName × Outcome)

namespace Cache

def empty : Cache := ⟨[]⟩

/-- The outcome kept for a name. -/
def get? (cache : Cache) (name : TypeName) : Option Outcome :=
  Keyed.get? name cache.entries

/-- Keep an outcome unless there is one for the name already. -/
def insert (cache : Cache) (name : TypeName) (outcome : Outcome) : Cache :=
  ⟨Keyed.setIfNew name outcome cache.entries⟩

/-- Count one more outcome. -/
def count (counts : Counts) : Outcome → Counts
  | .resolved _ => { counts with resolved := counts.resolved + 1 }
  | .missing => { counts with missing := counts.missing + 1 }
  | .corrupt _ => { counts with corrupt := counts.corrupt + 1 }

/-- The number of outcomes of each kind. -/
def counts (cache : Cache) : Counts :=
  cache.entries.foldl (fun counts entry => count counts entry.2) ⟨0, 0, 0⟩

end Cache

end TypeReach.Resolution

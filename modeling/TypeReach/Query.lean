import TypeReach.TypeDecl

/-!
# Questions about types

A query is a computation that may ask for the declarations of types.  What it
computes depends on the answers alone, so a query can be answered by any
look-up function, and one that remembers its answers gives the same result.
A bounded query may also give up because it went too deep.
-/

namespace TypeReach

/-- A computation that may ask for declarations. -/
inductive Query (α : Type) where
  | done (value : α)
  /-- Ask for a type and go on with its declaration, or without it. -/
  | ask (name : TypeName) (next : Option TypeDecl → Query α)
  /-- Ask for the interfaces of a type and go on with those that have a declaration. -/
  | askInterfaces (decl : TypeDecl) (next : List TypeDecl → Query α)

namespace Query

/-- Go on with another query. -/
def bind : Query α → (α → Query β) → Query β
  | done value, following => following value
  | ask name next, following => ask name fun decl => (next decl).bind following
  | askInterfaces decl next, following =>
    askInterfaces decl fun interfaces => (next interfaces).bind following

instance : Monad Query where
  pure := done
  bind := bind

/-- The declaration of a type. -/
def find (name : TypeName) : Query (Option TypeDecl) :=
  ask name done

/-- Whether a type has a declaration. -/
def canFind (name : TypeName) : Query Bool :=
  return (← find name).isSome

/-- The interfaces of a type that have a declaration. -/
def interfacesOf (decl : TypeDecl) : Query (List TypeDecl) :=
  askInterfaces decl done

/-- The declaration of a type that may not be given. -/
def find? : Option TypeName → Query (Option TypeDecl)
  | none => return none
  | some name => find name

/-- The first of some types that has no declaration. -/
def firstMissing : List TypeName → Query (Option TypeName)
  | [] => return none
  | name :: rest => do
    if ← canFind name then firstMissing rest
    else return some name

/-- The result when a function gives the answers. -/
def answer (lookup : TypeName → Option TypeDecl) : Query α → α
  | done value => value
  | ask name next => (next (lookup name)).answer lookup
  | askInterfaces decl next => (next (decl.interfaces.filterMap lookup)).answer lookup

/-- The types asked for, in order, when a function gives the answers. -/
def asked (lookup : TypeName → Option TypeDecl) : Query α → List TypeName
  | done _ => []
  | ask name next => name :: (next (lookup name)).asked lookup
  | askInterfaces decl next =>
    decl.interfaces ++ (next (decl.interfaces.filterMap lookup)).asked lookup

/-! ## Laws -/

theorem bind_done (query : Query α) : query.bind done = query := by
  induction query with
  | done value => rfl
  | ask name next inductive_hypothesis => simp [bind, inductive_hypothesis]
  | askInterfaces decl next inductive_hypothesis => simp [bind, inductive_hypothesis]

theorem bind_assoc (query : Query α) (first : α → Query β) (second : β → Query γ) :
    (query.bind first).bind second = query.bind fun value => (first value).bind second := by
  induction query with
  | done value => rfl
  | ask name next inductive_hypothesis => simp [bind, inductive_hypothesis]
  | askInterfaces decl next inductive_hypothesis => simp [bind, inductive_hypothesis]

instance : LawfulMonad Query :=
  LawfulMonad.mk' Query bind_done (fun _ _ => rfl) bind_assoc

@[simp]
theorem answer_pure (lookup : TypeName → Option TypeDecl) (value : α) :
    (pure value : Query α).answer lookup = value :=
  rfl

@[simp]
theorem answer_bind (lookup : TypeName → Option TypeDecl) (query : Query α)
    (following : α → Query β) :
    (query >>= following).answer lookup = (following (query.answer lookup)).answer lookup := by
  induction query with
  | done value => rfl
  | ask name next inductive_hypothesis => exact inductive_hypothesis _
  | askInterfaces decl next inductive_hypothesis => exact inductive_hypothesis _

@[simp]
theorem answer_map (lookup : TypeName → Option TypeDecl) (change : α → β) (query : Query α) :
    (change <$> query).answer lookup = change (query.answer lookup) := by
  rw [← bind_pure_comp, answer_bind, answer_pure]

@[simp]
theorem answer_find (lookup : TypeName → Option TypeDecl) (name : TypeName) :
    (find name).answer lookup = lookup name :=
  rfl

@[simp]
theorem answer_interfacesOf (lookup : TypeName → Option TypeDecl) (decl : TypeDecl) :
    (interfacesOf decl).answer lookup = decl.interfaces.filterMap lookup :=
  rfl

end Query

/-- A query that gives up when it goes deeper than it was allowed to. -/
structure BoundedQuery (α : Type) where
  /-- The query itself, without a result if it gave up. -/
  run : Query (Option α)

namespace BoundedQuery

/-- Go on with another query unless this one gave up. -/
def bind (query : BoundedQuery α) (following : α → BoundedQuery β) : BoundedQuery β where
  run := query.run >>= fun
    | none => pure none
    | some value => (following value).run

instance : Monad BoundedQuery where
  pure value := ⟨pure (some value)⟩
  bind := bind

instance : MonadLift Query BoundedQuery where
  monadLift query := ⟨query >>= fun value => pure (some value)⟩

/-- Give up. -/
def tooDeep : BoundedQuery α := ⟨pure none⟩

/-- The result, or a substitute for a query that gave up. -/
def getD (query : BoundedQuery α) (substitute : α) : Query α :=
  return (← query.run).getD substitute

/-! ## Laws -/

@[simp]
theorem run_pure (value : α) : (pure value : BoundedQuery α).run = pure (some value) :=
  rfl

@[simp]
theorem run_tooDeep : (tooDeep : BoundedQuery α).run = pure none :=
  rfl

@[simp]
theorem answer_run_bind (lookup : TypeName → Option TypeDecl) (query : BoundedQuery α)
    (following : α → BoundedQuery β) :
    (query >>= following).run.answer lookup =
      (query.run.answer lookup).bind fun value => (following value).run.answer lookup := by
  change (query.run >>= _).answer lookup = _
  rw [Query.answer_bind]
  cases query.run.answer lookup <;> rfl

@[simp]
theorem answer_run_lift (lookup : TypeName → Option TypeDecl) (query : Query α) :
    (monadLift query : BoundedQuery α).run.answer lookup = some (query.answer lookup) := by
  change (query >>= _).answer lookup = _
  rw [Query.answer_bind]
  rfl

end BoundedQuery

end TypeReach

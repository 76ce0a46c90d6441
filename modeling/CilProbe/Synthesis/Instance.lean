import CilProbe.Synthesis.Argument

/-!
# Instances

An instance of a type is made by its simplest constructor that succeeds. Arguments of string, value, enumeration and
array types get their defaults, and for other arguments instances are made in turn, one level deeper, down to a bound.

A type that failed at some level is not tried again at that level or deeper during the same search. The search is
`Search.build`, by recursion on the number of levels that are left; `instanceOf` starts it.
-/

namespace CilProbe.Synthesis

variable {τ μ σ α : Type}

/-- The least level at which types failed, by name; of several entries for a name the first counts. -/
abbrev Failures := List (String × Int)

/-- A step of a search. -/
abbrev Search (σ α : Type) := ExceptT Raised (StateM (Failures × Session σ)) α

namespace Search

def lift (act : Action σ α) : Search σ α := fun (failures, s) =>
  let (ended, t) := act s
  (ended, (failures, t))

def failWith (typeName : String) (reason : InstantiationReason) : Search σ α :=
  throw (.fault (.instantiation ⟨typeName, reason⟩))

/-- The level at which a type failed. -/
def failureLevel? (typeName : String) : Search σ (Option Int) := fun state =>
  (.ok (state.1.lookup typeName), state)

/-- Notes the level of a type for which a search ends with an instantiation error. -/
def noting (typeName : String) (depth : Int) (search : Search σ α) : Search σ α := fun state =>
  match search state with
  | (.error (.fault (.instantiation e)), (failures, s)) =>
    let level := match failures.lookup typeName with
      | some level => min depth level
      | none => depth
    (.error (.fault (.instantiation e)), ((typeName, level) :: failures, s))
  | ended => ended

/-- Catches faults, but no exits. -/
def attempt (search : Search σ α) : Search σ (Except Fault α) := fun state =>
  match search state with
  | (.ok a, after) => (.ok (.ok a), after)
  | (.error (.fault f), after) => (.ok (.error f), after)
  | (.error (.exit e), after) => (.error (.exit e), after)

/-- The arguments of a constructor; `build` makes instances of the types without a default. -/
def argumentsFor (h : Host τ μ σ) (build : τ → Search σ Value) : List (Parameter τ) → Search σ (List Value)
  | [] => return []
  | p :: ps => do
    let v ← if (← lift (h.typeKind p.type)).hasDefault then lift (defaultOf h p.type) else build p.type
    return v :: (← argumentsFor h build ps)

/-- The first of the constructors that succeeds. `last` is the failure of the constructor before. The text of each
failure is taken for the record, and the search ends if that fails. -/
def firstOf (h : Host τ μ σ) (build : τ → Search σ Value) (typeName : String) :
    Option Fault → List (μ × List (Parameter τ)) → Search σ Value
  | none, [] => failWith typeName .noConstructor
  | some last, [] => do failWith typeName (.allFailed (← lift (h.text last)))
  | _, (constructor, parameters) :: others => do
    match ← attempt (do lift (h.construct constructor (← argumentsFor h build parameters))) with
    | .ok v => return v
    | .error f =>
      let _ ← lift (h.text f)
      firstOf h build typeName (some f) others

/-- An instance by one of the constructors: by the first one without parameters if there is one, and else by the one
with the fewest parameters that succeeds. -/
def ofConstructors (h : Host τ μ σ) (build : τ → Search σ Value) (typeName : String)
    (constructors : List (μ × List (Parameter τ))) : Search σ Value := do
  match constructors.find? fun c => c.2.isEmpty with
  | some (constructor, _) =>
    match ← attempt (lift (h.construct constructor [])) with
    | .ok v => return v
    | .error f => failWith typeName (.defaultFailed (← lift (h.text f)))
  | none =>
    firstOf h build typeName none (constructors.mergeSort fun a b => a.2.length ≤ b.2.length)

/-- The parameters of constructors. -/
def withParameters (h : Host τ μ σ) : List μ → Search σ (List (μ × List (Parameter τ)))
  | [] => return []
  | constructor :: others => do
    let parameters ← lift (h.parameters constructor)
    return (constructor, parameters) :: (← withParameters h others)

/-- An instance of a type within the bound; `build` makes instances one level deeper. -/
def ofType (h : Host τ μ σ) (build : τ → Search σ Value) (typeName : String) (type : τ) : Search σ Value := do
  match ← lift (h.typeKind type) with
  | .string => return .text ""
  | .value | .enum | .array => lift (defaultOf h type)
  | .abstractClass => failWith typeName .abstractType
  | .interface => failWith typeName .interfaceType
  | .plainClass =>
    let constructors ← lift (h.constructors type)
    ofConstructors h build typeName (← withParameters h constructors)

/-- Makes an instance unless the type has failed at this level or above. -/
def unlessFailed (h : Host τ μ σ) (depth : Int) (type : τ) (search : String → Search σ Value) : Search σ Value := do
  let typeName ← lift (h.typeName type)
  match ← failureLevel? typeName with
  | some level =>
    if level ≤ depth then failWith typeName (.failedBefore level) else noting typeName depth (search typeName)
  | none => noting typeName depth (search typeName)

/-- Makes an instance at a depth, with a number of levels left down to the bound. -/
def build (h : Host τ μ σ) (bound : Int) : Nat → Int → τ → Search σ Value
  | 0, depth, type => unlessFailed h depth type fun typeName => failWith typeName (.tooDeep bound)
  | levels + 1, depth, type =>
    unlessFailed h depth type fun typeName => ofType h (build h bound levels (depth + 1)) typeName type

end Search

/-- The depth below which nothing is built, if no other bound is given. -/
def defaultBound : Int := 10

/-- An instance of a type, with a bound on the depth; `depth` is the depth of the type itself. -/
def instanceOf (h : Host τ μ σ) (type : τ) (bound depth : Int) : Action σ Value := fun s =>
  let (ended, (_, t)) := Search.build h bound (bound + 1 - depth).toNat depth type ([], s)
  (ended, t)

end CilProbe.Synthesis

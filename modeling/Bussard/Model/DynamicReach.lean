import Bussard.Model.DynamicSettle

/-! What an evaluation reaches, as a least fixpoint. The rules of the walk are stated over the
tree alone, with the active refs as a set; a walk that starts from a settled active set reaches
exactly what the rules derive, in whatever order the siblings stand. -/
namespace Bussard.Dynamic
open Bussard.Text

/-- One thing an evaluation reaches. -/
inductive Reached where
  | parameter (key : Key)
  | comObject (key : Key)
  | moduleInstance (id : String)

/-- What a module instance means to the nodes in its body. -/
structure Context where
  id : String
  moduleDef : String
  args : Args

def ActiveModule.context (m : ActiveModule) : Context := ⟨m.id, m.moduleDef, m.args⟩

/-- The contexts a ref reached inside `chain` (innermost first) belongs to. -/
def scopeIn (chain : List Context) (refId : String) : List Context :=
  match chain.dropWhile fun c => !ownsRef c.moduleDef refId with
  | [] => if startsWith refId "MD-" then chain else []
  | c :: rest => c :: rest

def instanceIn (chain : List Context) : String := (chain.head?.map (·.id)).getD ""

def argsIn (chain : List Context) : Option Args := chain.head?.map (·.args)

/-- The value of a computed argument without an allocator. -/
def argValue (parentArgs : Option Args) (arg : ComputedArg) : Option Int :=
  (match arg.base with
    | some b => parentArgs.bind (·.lookup b)
    | none => some 0).map (saturatingAdd (arg.value.getD 0))

def addArg (parentArgs : Option Args) (resolved : Args) (arg : ComputedArg) : Args :=
  match argValue parentArgs arg with
  | some v => resolved.insert arg.arg v
  | none => resolved

/-- The context of a new module instance. -/
def newContext (chain : List Context) (repetition : Nat) (id moduleDef : String) (args : Args)
    (computedArgs : List ComputedArg) : Context :=
  ⟨Walk.instanceKey (chain.head?.map (·.id)) id moduleDef repetition, moduleDef,
    computedArgs.foldl (addArg (argsIn chain)) args⟩

section Rules
variable (input : WalkInput) (active : Set Key)

/-- A never-shown virtual parameter on a System B program. -/
def hiddenVirtualB (paramId : String) : Bool :=
  decide (paramId ∉ placedParameters input.app) && input.app.isSystemB && input.app.isVirtual paramId

/-- A `choose` on a shown parameter needs its ref to be active. -/
def ActiveIn (chain : List Context) (refId : String) (defaultOnly : Bool) : Prop :=
  match input.app.parameterId refId with
  | none => True
  | some id =>
      if id ∈ placedParameters input.app then (instanceIn (scopeIn chain refId), refId) ∈ active
      else (defaultOnly && hiddenVirtualB input id) = false

/-- The branches an active `choose` takes. -/
def entersIn (chain : List Context) (refId : String) (tests : List WhenTest) (test : WhenTest) :
    Bool :=
  let scope := scopeIn chain refId
  let value := (valueOf input.app input.values (instanceIn scope) (argsIn scope) refId).bind fun v =>
    input.host.parseF64 (trim v)
  let noTests := ((input.app.parameterId refId).map fun id =>
    hiddenVirtualB input id && decide (id ∉ assignedParameters input.app)).getD false
  takenBranch input.host tests value test && !(noTests && decide (test ≠ .default))

/-- How often a `<Repeat>` repeats its children. -/
def repeatIn (chain : List Context) (refId : Option String) (count : Option Nat) : Nat :=
  let n := match refId with
    | some r =>
        let scope := scopeIn chain r
        ((valueOf input.app input.values (instanceIn scope) (argsIn scope) r).bind
          fun v => parseI64 (trim v)).getD 0
    | none => (count.map fun c => (c : Int)).getD 0
  (max 0 (min n maxRepeat)).toNat

/-- The walk rules for one node, with so many module levels left, inside the instances `chain`,
in this repetition. -/
inductive ReachesNode : Nat → List Context → Nat → DynamicNode → Reached → Prop where
  | parameter {left chain rep r} :
      ReachesNode left chain rep (.parameterRefRef r)
        (.parameter (instanceIn (scopeIn chain r), r))
  | comObject {left chain rep r} :
      ReachesNode left chain rep (.comObjectRefRef r)
        (.comObject (instanceIn (scopeIn chain r), r))
  | channel {left chain rep children node e} (hMem : node ∈ children)
      (hNode : ReachesNode left chain rep node e) :
      ReachesNode left chain rep (.channel children) e
  | parameterBlock {left chain rep children node e} (hMem : node ∈ children)
      (hNode : ReachesNode left chain rep node e) :
      ReachesNode left chain rep (.parameterBlock children) e
  | choose {left chain rep r whens test children node e}
      (hActive : ActiveIn input active chain r (defaultOnly (whens.map Prod.fst)))
      (hBranch : (test, children) ∈ whens)
      (hTaken : entersIn input chain r (whens.map Prod.fst) test = true)
      (hMem : node ∈ children) (hNode : ReachesNode left chain rep node e) :
      ReachesNode left chain rep (.choose r whens) e
  | moduleInstance {left chain rep id moduleDef args computedArgs body}
      (hBody : input.app.moduleDynamic moduleDef = some body) :
      ReachesNode (left + 1) chain rep (.moduleElement id moduleDef args computedArgs)
        (.moduleInstance (newContext chain rep id moduleDef args computedArgs).id)
  | moduleBody {left chain rep id moduleDef args computedArgs body node e}
      (hBody : input.app.moduleDynamic moduleDef = some body) (hMem : node ∈ body)
      (hNode : ReachesNode left (newContext chain rep id moduleDef args computedArgs :: chain) 1
        node e) :
      ReachesNode (left + 1) chain rep (.moduleElement id moduleDef args computedArgs) e
  | repetition {left chain rep r count children k node e}
      (hCount : k < repeatIn input chain r count) (hMem : node ∈ children)
      (hNode : ReachesNode left chain (k + 1) node e) :
      ReachesNode left chain rep (.repeatElement r count children) e

/-- More active refs reach no less. -/
theorem ReachesNode.mono {input : WalkInput} {A B : Set Key} (hSubset : A ⊆ B) {left : Nat}
    {chain : List Context} {rep : Nat} {node : DynamicNode} {e : Reached}
    (h : ReachesNode input A left chain rep node e) : ReachesNode input B left chain rep node e := by
  induction h with
  | parameter => exact .parameter
  | comObject => exact .comObject
  | channel hMem _ ih => exact .channel hMem ih
  | parameterBlock hMem _ ih => exact .parameterBlock hMem ih
  | @choose left chain rep r whens test children node e hActive hBranch hTaken hMem _ ih =>
      refine .choose ?_ hBranch hTaken hMem ih
      unfold ActiveIn at hActive ⊢
      split at hActive
      · trivial
      · split_ifs at hActive ⊢
        · exact hSubset hActive
        · exact hActive
  | moduleInstance hBody => exact .moduleInstance hBody
  | moduleBody hBody hMem _ ih => exact .moduleBody hBody hMem ih
  | repetition hCount hMem _ ih => exact .repetition hCount hMem ih

/-- What the rules reach among sibling nodes. -/
def ReachesNodes (left : Nat) (chain : List Context) (rep : Nat) (nodes : List DynamicNode)
    (e : Reached) : Prop :=
  ∃ node ∈ nodes, ReachesNode input active left chain rep node e

end Rules

/-- The active refs of a reached set. -/
def activeKeys (S : Set Reached) : Set Key := {key | Reached.parameter key ∈ S}

/-- A set is closed under the walk rules over the whole Dynamic section. -/
def WalkClosed (host : Host) (app : DynamicSource) (overrides : List (String × String))
    (S : Set Reached) : Prop :=
  ∀ e, ReachesNodes ⟨host, app, (initialState app overrides).1.values⟩ (activeKeys S)
    maxModuleDepth [] 1 app.dynamic e → e ∈ S

/-- What so many rounds of the walk rules reach, each with the refs of the one before active. -/
def reachedInRounds (host : Host) (app : DynamicSource) (overrides : List (String × String)) :
    Nat → Set Reached
  | 0 => ∅
  | n + 1 => {e | ReachesNodes ⟨host, app, (initialState app overrides).1.values⟩
      (activeKeys (reachedInRounds host app overrides n)) maxModuleDepth [] 1 app.dynamic e}

theorem reachedInRounds_succ (host : Host) (app : DynamicSource)
    (overrides : List (String × String)) (n : Nat) :
    reachedInRounds host app overrides n ⊆ reachedInRounds host app overrides (n + 1) := by
  induction n with
  | zero => exact Set.empty_subset _
  | succ n ih =>
      rintro e ⟨node, hMem, hNode⟩
      exact ⟨node, hMem, hNode.mono fun key hKey => ih hKey⟩

theorem reachedInRounds_le (host : Host) (app : DynamicSource)
    (overrides : List (String × String)) {m n : Nat} (h : m ≤ n) :
    reachedInRounds host app overrides m ⊆ reachedInRounds host app overrides n :=
  monotone_nat_of_le_succ (reachedInRounds_succ host app overrides) h

/-- Parameters gate one another at most so deep: a further round makes no ref active. -/
def GatedWithin (host : Host) (app : DynamicSource) (overrides : List (String × String))
    (depth : Nat) : Prop :=
  activeKeys (reachedInRounds host app overrides (depth + 1)) ⊆
    activeKeys (reachedInRounds host app overrides depth)

/-- The key of a module instance of a configuration. -/
def instanceKeyOf (modules : List ActiveModule) (module? : Option Nat) : String :=
  ((module?.bind (modules[·]?)).map (·.id)).getD ""

/-- What a configuration reaches, by instance keys. -/
def DynamicConfig.reachedSet (config : DynamicConfig) : Set Reached :=
  {e | (∃ p ∈ config.parameters, e = .parameter (instanceKeyOf config.modules p.module?, p.refId)) ∨
    (∃ c ∈ config.comObjects, e = .comObject (instanceKeyOf config.modules c.module?, c.refId)) ∨
    ∃ m ∈ config.modules, e = .moduleInstance m.id}

/-- No assigns, calculations, integer union members or allocator arguments. -/
structure Plain (app : DynamicSource) : Prop where
  noAssigns : ∀ target source value, DynamicNode.assign target source value ∉ allNodes app
  noCalculations : app.calculations = []
  noUnionMembers : ∀ u ∈ app.unions, ∀ m ∈ u.members, app.integerWidth m.parameter = none
  noAllocators : ∀ id moduleDef args computedArgs,
    DynamicNode.moduleElement id moduleDef args computedArgs ∈ allNodes app →
    ∀ arg ∈ computedArgs, arg.allocator = none

/-- The contexts of the instance at an index: its own and those of its parents, which stand
before it. -/
inductive ChainAt (modules : List ActiveModule) : Option Nat → List Context → Prop where
  | outside : ChainAt modules none []
  | inside {i m chain} (hGet : modules[i]? = some m) (hParent : ∀ j, m.parent = some j → j < i)
      (hRest : ChainAt modules m.parent chain) :
      ChainAt modules (some i) (m.context :: chain)

namespace ChainAt
variable {modules : List ActiveModule} {module? : Option Nat} {chain : List Context}

theorem append (h : ChainAt modules module? chain) (new : List ActiveModule) :
    ChainAt (modules ++ new) module? chain := by
  induction h with
  | outside => exact .outside
  | inside hGet hParent _ ih =>
      refine .inside ?_ hParent ih
      obtain ⟨hLt, -⟩ := List.getElem?_eq_some_iff.mp hGet
      rw [List.getElem?_append_left hLt]
      exact hGet

theorem length_le (h : ChainAt modules module? chain) :
    ∀ i, (∀ j, module? = some j → j < i) → chain.length ≤ i := by
  induction h with
  | outside => exact fun i _ => i.zero_le
  | @inside i m chain hGet hParent _ ih =>
      intro n hn
      exact Nat.succ_le_of_lt (Nat.lt_of_le_of_lt (ih i hParent) (hn i rfl))

theorem index_lt (h : ChainAt modules module? chain) : ∀ j, module? = some j → j < modules.length := by
  cases h with
  | outside => exact fun j hj => absurd hj (by simp)
  | inside hGet _ _ =>
      rintro j ⟨⟩
      exact (List.getElem?_eq_some_iff.mp hGet).1

/-- A new instance at the end of the list extends the chain of its parent. -/
theorem push (h : ChainAt modules module? chain) (m : ActiveModule) (hParent : m.parent = module?) :
    ChainAt (modules ++ [m]) (some modules.length) (m.context :: chain) := by
  refine .inside (by simp) ?_ ?_
  · rw [hParent]
    exact h.index_lt
  · rw [hParent]
    exact h.append [m]

/-- The walk up the parents drops the contexts that do not own the reference. -/
theorem scopeFrom (h : ChainAt modules module? chain) (refId : String) (fallback : Option Nat)
    (fuel : Nat) (hFuel : chain.length < fuel) :
    (chain.dropWhile (fun c => !ownsRef c.moduleDef refId) = [] ∧
      Dynamic.scopeFrom modules refId fallback fuel module? = fallback) ∨
    (chain.dropWhile (fun c => !ownsRef c.moduleDef refId) ≠ [] ∧
      ChainAt modules (Dynamic.scopeFrom modules refId fallback fuel module?)
        (chain.dropWhile fun c => !ownsRef c.moduleDef refId)) := by
  induction h generalizing fuel with
  | outside =>
      obtain ⟨fuel, rfl⟩ := Nat.exists_eq_add_one.mpr (Nat.zero_lt_of_lt hFuel)
      exact .inl ⟨rfl, rfl⟩
  | @inside i m chain hGet hParent hRest ih =>
      obtain ⟨fuel, rfl⟩ := Nat.exists_eq_add_one.mpr (Nat.zero_lt_of_lt hFuel)
      have hStep : Dynamic.scopeFrom modules refId fallback (fuel + 1) (some i) =
          if ownsRef m.moduleDef refId then some i
          else Dynamic.scopeFrom modules refId fallback fuel m.parent := by
        rw [Dynamic.scopeFrom, hGet]
      rw [hStep]
      by_cases hOwns : ownsRef m.moduleDef refId = true
      · have hDrop : (m.context :: chain).dropWhile (fun c => !ownsRef c.moduleDef refId) =
            m.context :: chain := List.dropWhile_cons_of_neg (by simp [ActiveModule.context, hOwns])
        rw [if_pos hOwns, hDrop]
        exact .inr ⟨by simp, .inside hGet hParent hRest⟩
      · have hDrop : (m.context :: chain).dropWhile (fun c => !ownsRef c.moduleDef refId) =
            chain.dropWhile fun c => !ownsRef c.moduleDef refId :=
          List.dropWhile_cons_of_pos (by simp [ActiveModule.context, hOwns])
        rw [if_neg hOwns, hDrop]
        exact ih fuel (Nat.lt_of_succ_lt_succ hFuel)

/-- The scope of a ref by indices is its scope by contexts. -/
theorem scopeOf (h : ChainAt modules module? chain) (refId : String) :
    ChainAt modules (Dynamic.scopeOf modules module? refId) (scopeIn chain refId) := by
  have hFuel : chain.length < modules.length + 1 :=
    Nat.lt_succ_of_le (h.length_le modules.length h.index_lt)
  unfold Dynamic.scopeOf scopeIn
  rcases h.scopeFrom refId (if startsWith refId "MD-" then module? else none)
    (modules.length + 1) hFuel with ⟨hDrop, hEq⟩ | ⟨hDrop, hAt⟩
  · rw [hEq, hDrop]
    by_cases hModule : startsWith refId "MD-" = true
    · simp only [hModule, if_true]
      exact h
    · simp only [hModule]
      exact .outside
  · cases hRest : chain.dropWhile fun c => !ownsRef c.moduleDef refId with
    | nil => exact absurd hRest hDrop
    | cons c rest =>
        rw [hRest] at hAt
        exact hAt

theorem activeModule {w : Walk} (h : ChainAt w.modules module? chain) :
    (w.activeModule module?).map ActiveModule.context = chain.head? := by
  cases h with
  | outside => rfl
  | inside hGet _ _ => simp [Walk.activeModule, hGet]

theorem instanceId {w : Walk} (h : ChainAt w.modules module? chain) :
    w.instanceId module? = instanceIn chain := by
  unfold Walk.instanceId instanceIn
  rw [← h.activeModule, Option.map_map]
  rfl

theorem moduleArgs {w : Walk} (h : ChainAt w.modules module? chain) :
    w.moduleArgs module? = argsIn chain := by
  unfold Walk.moduleArgs argsIn
  rw [← h.activeModule, Option.map_map]
  rfl

theorem parentId {w : Walk} (h : ChainAt w.modules module? chain) :
    (w.activeModule module?).map (·.id) = chain.head?.map (·.id) := by
  rw [← h.activeModule, Option.map_map]
  rfl

end ChainAt

end Bussard.Dynamic

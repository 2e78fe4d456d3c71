import PhosphorBlobs.Lib.Firsts
import PhosphorBlobs.Utils
import PhosphorBlobs.Manager.Outcomes

/-! Loading, on a directory of libraries whose outcomes are fixed. Each factory is called once,
whatever stands before it in the directory, and what it makes is registered. -/
namespace PhosphorBlobs

variable {H F : Type}

/-- What the dynamic loader makes of a library. -/
inductive Library (F : Type) where
  | unopenable (error : String)
  | symbolless (error : String)
  | providing (factory : F)

def Library.factory? : Library F → Option F
  | .providing factory => some factory
  | _ => none

def Made.handler? : Made H → Option H
  | .result handler => handler
  | .exception => none

/-- The calls of loadLibraries that others notice: dlopen, a factory, the manager. -/
inductive LoadEvent (H F : Type) where
  | opened (path : Path)
  | called (factory : F)
  | managed (call : ManagerCall H)

def LoadEvent.opened? : LoadEvent H F → Option Path
  | .opened path => some path
  | _ => none

def LoadEvent.called? : LoadEvent H F → Option F
  | .called factory => some factory
  | _ => none

def LoadEvent.managed? : LoadEvent H F → Option (ManagerCall H)
  | .managed call => some call
  | _ => none

/-- The error that dlerror has not yet reported, the manager, and the calls made. -/
structure Loader (H F : Type) where
  pending : Option String
  world : World H
  calls : List (LoadEvent H F)

abbrev OnLoader (H F : Type) := StateM (Loader H F)

/-- A dynamic loader whose library handles are the paths. Errors stay pending, over later
calls that succeed, until dlerror reports them. -/
def dlsys (libs : Path → Library F) : DlSysInterface Path F (OnLoader H F) where
  dlerror := fun l => (l.pending, { l with pending := none })
  dlopen path := fun l =>
    let l := { l with calls := l.calls ++ [.opened path] }
    match libs path with
    | .unopenable error => (none, { l with pending := some error })
    | _ => (some path, l)
  dlsym path _ := fun l =>
    match libs path with
    | .providing factory => (some factory, l)
    | .symbolless error | .unopenable error => (none, { l with pending := some error })

def calling (made : F → Made H) (factory : F) : OnLoader H F (Made H) := fun l =>
  (made factory, { l with calls := l.calls ++ [.called factory] })

def managing [DecidableEq H] (A : Answers H) (clock : Clock) : ManagerInterface H (OnLoader H F) :=
  fun call l =>
    let done := blobManager A clock call l.world
    (done.1, { l with world := done.2, calls := l.calls ++ [.managed call] })

section Rounds

variable [DecidableEq F] (libs : Path → Library F) (made : F → Made H)

def called? (before : List Path) (p : Path) : Option F :=
  Firsts.new? (fun p => (libs p).factory?) before p

def registered? (before : List Path) (p : Path) : Option H :=
  (called? libs before p).bind fun f => (made f).handler?

def loading (before : List Path) (p : Path) : List (LoadEvent H F) :=
  .opened p :: ((called? libs before p).toList.map .called ++
    (registered? libs made before p).toList.map fun h => .managed (.registerHandler (some h)))

/-- The factories that the libraries provide, in the order in which they are first met. -/
def factories (paths : List Path) : List F := Firsts.firsts (fun p => (libs p).factory?) paths

def madeHandlers (paths : List Path) : List H :=
  (factories libs paths).filterMap fun f => (made f).handler?

theorem loading_selected {γ : Type} (select : LoadEvent H F → Option γ) (before : List Path) (p : Path) :
    (loading libs made before p).filterMap select = (select (.opened p)).toList ++
      (((called? libs before p).bind fun f => select (.called f)).toList ++
        ((registered? libs made before p).bind fun h =>
          select (.managed (.registerHandler (some h)))).toList) := by
  have single : ∀ {ε : Type} (o : Option ε) (f : ε → LoadEvent H F),
      (o.toList.map f).filterMap select = (o.bind fun e => select (f e)).toList := by
    intro ε o f
    cases o with
    | none => rfl
    | some e => cases seen : select (f e) <;> simp [seen]
  rw [loading, ← List.singleton_append, List.filterMap_append, List.filterMap_append, single, single]
  cases seen : select (.opened p) <;> simp [seen]

theorem factories_along (paths : List Path) :
    factories libs paths = Firsts.along (fun before p => (called? libs before p).toList) [] paths := by
  have all := Firsts.firsts_append (fun p => (libs p).factory?) [] paths
  rwa [List.nil_append] at all

theorem madeHandlers_along (paths : List Path) :
    madeHandlers libs made paths =
      Firsts.along (fun before p => (registered? libs made before p).toList) [] paths := by
  rw [madeHandlers, factories_along, Firsts.filterMap_along]
  congr
  funext before p
  rw [registered?]
  cases called? libs before p with
  | none => rfl
  | some f => cases handler : (made f).handler? <;> simp [handler]

theorem loading_opened (paths : List Path) :
    (Firsts.along (loading libs made) [] paths).filterMap LoadEvent.opened? = paths := by
  rw [Firsts.filterMap_along]
  refine Eq.trans ?_ (Firsts.along_all [] paths)
  congr
  funext before p
  simp [loading_selected, LoadEvent.opened?]

theorem loading_called (paths : List Path) :
    (Firsts.along (loading libs made) [] paths).filterMap LoadEvent.called? = factories libs paths := by
  rw [Firsts.filterMap_along, factories_along]
  congr
  funext before p
  simp [loading_selected, LoadEvent.called?]

theorem loading_managed (paths : List Path) :
    (Firsts.along (loading libs made) [] paths).filterMap LoadEvent.managed? =
      (madeHandlers libs made paths).map fun h => .registerHandler (some h) := by
  rw [Firsts.filterMap_along, madeHandlers_along, ← List.filterMap_eq_map, Firsts.filterMap_along]
  congr
  funext before p
  rw [loading_selected]
  cases handler : registered? libs made before p <;> simp [LoadEvent.managed?]

def seenAfter (before : List Path) : Finset (Option F) :=
  (before.filterMap fun p => (libs p).factory?).toFinset.image some

theorem seenAfter_none {before : List Path} {p : Path} (known : (libs p).factory? = none) :
    seenAfter libs (before ++ [p]) = seenAfter libs before := by
  have last : [p].filterMap (fun p => (libs p).factory?) = [] := by simp [known]
  rw [seenAfter, List.filterMap_append, last, List.append_nil, seenAfter]

theorem seenAfter_some {before : List Path} {p : Path} {f : F} (known : (libs p).factory? = some f) :
    seenAfter libs (before ++ [p]) = insert (some f) (seenAfter libs before) := by
  have last : [p].filterMap (fun p => (libs p).factory?) = [f] := by simp [known]
  rw [seenAfter, List.filterMap_append, last, List.toFinset_append, Finset.image_union,
    Finset.union_comm]
  rfl

theorem called_none {before : List Path} {p : Path} (known : (libs p).factory? = none) :
    called? libs before p = none := by
  rw [called?, Firsts.new?, known, Option.filter_none]

theorem called_some {before : List Path} {p : Path} {f : F} (known : (libs p).factory? = some f) :
    called? libs before p = if some f ∈ seenAfter libs before then none else some f := by
  rw [called?, Firsts.new?, known, seenAfter]
  generalize before.filterMap (fun p => (libs p).factory?) = factories
  by_cases met : f ∈ factories
  · simp [Option.filter, met]
  · simp [Option.filter, met]

end Rounds

def World.register (w : World H) (hs : List H) : World H :=
  { w with manager := { w.manager with handlers := w.manager.handlers ++ hs } }

section Loop

theorem lift_apply {ε σ α β : Type} (x : StateM σ α) (f : α → ExceptT ε (StateM σ) β) (s : σ) :
    ((liftM x : ExceptT ε (StateM σ) α) >>= f) s = f (x s).1 (x s).2 := rfl

theorem ok_apply {ε σ α : Type} (a : α) (s : σ) :
    (pure a : ExceptT ε (StateM σ) α) s = (.ok a, s) := rfl

theorem bind_ok_apply {ε σ α β : Type} {x : ExceptT ε (StateM σ) α} {s t : σ} {a : α}
    (done : x s = (.ok a, t)) (f : α → ExceptT ε (StateM σ) β) : (x >>= f) s = f a t := by
  have peeled : (x >>= f) s = ExceptT.bindCont f (x s).1 (x s).2 := rfl
  rw [peeled, done]
  rfl

variable [DecidableEq H] [DecidableEq F] (libs : Path → Library F) (made : F → Made H)
  (A : Answers H) (clock : Clock)

theorem loadLibrary_round (before : List Path) (p : Path) (l : Loader H F) :
    ∃ pending, loadLibrary (managing A clock) (dlsys libs) (calling made) p (seenAfter libs before) l =
      (.ok (seenAfter libs (before ++ [p])),
        ⟨pending, l.world.register (registered? libs made before p).toList,
          l.calls ++ loading libs made before p⟩) := by
  rw [loading, registered?]
  cases known : libs p with
  | unopenable error =>
    have nothing : (libs p).factory? = none := by rw [known]; rfl
    rw [called_none libs nothing, seenAfter_none libs nothing]
    simp only [loadLibrary, lift_apply, dlsys, known]
    exact ⟨none, by simp [ok_apply, World.register]⟩
  | symbolless error =>
    have nothing : (libs p).factory? = none := by rw [known]; rfl
    rw [called_none libs nothing, seenAfter_none libs nothing]
    simp only [loadLibrary, lift_apply, dlsys, known]
    exact ⟨none, by simp [ok_apply, World.register]⟩
  | providing f =>
    have provides : (libs p).factory? = some f := by rw [known]; rfl
    rw [called_some libs provides, seenAfter_some libs provides]
    simp only [loadLibrary, lift_apply, dlsys, known]
    by_cases met : some f ∈ seenAfter libs before
    · rw [if_pos met, Finset.insert_eq_of_mem met]
      simp only [met, if_true, Option.isSome_none, Bool.false_eq_true, if_false]
      exact ⟨none, by simp [ok_apply, World.register]⟩
    · rw [if_neg met]
      simp only [met, Option.isSome_none, Bool.false_eq_true, if_false, lift_apply, calling]
      cases outcome : made f with
      | exception => exact ⟨none, by simp [ok_apply, World.register, outcome, Made.handler?]⟩
      | result handler =>
        cases handler with
        | none => exact ⟨none, by simp [ok_apply, World.register, outcome, Made.handler?]⟩
        | some h =>
          refine ⟨none, ?_⟩
          simp [lift_apply, ok_apply, World.register, outcome, Made.handler?, managing, blobManager,
            BlobManager.registerHandler]

theorem loadEach_run (before paths : List Path) (l : Loader H F) :
    ∃ pending, loadEach (managing A clock) (dlsys libs) (calling made) paths (seenAfter libs before) l =
      (.ok (), ⟨pending,
        l.world.register (Firsts.along (fun before p => (registered? libs made before p).toList)
          before paths),
        l.calls ++ Firsts.along (loading libs made) before paths⟩) := by
  induction paths generalizing before l with
  | nil => exact ⟨l.pending, by simp [loadEach, ok_apply, Firsts.along, World.register]⟩
  | cons p rest ih =>
    obtain ⟨left, round⟩ := loadLibrary_round libs made A clock before p l
    obtain ⟨pending, later⟩ := ih (before ++ [p]) ⟨left,
      l.world.register (registered? libs made before p).toList, l.calls ++ loading libs made before p⟩
    refine ⟨pending, (bind_ok_apply round _).trans (later.trans ?_)⟩
    simp only [World.register, Firsts.along, List.append_assoc]

/-- Loading on any directory, from any state. The entries with a ".so" are opened; each factory is
called once, for the first library that provides it; what the factories made is registered in
that order. Another order of the directory leads to another order of the same handlers. -/
theorem libraries_load_once (l : Loader H F) (entries : List Path) :
    let paths := getLibraryList entries matchBlobHandler
    let done := loadLibraries (managing A clock) (dlsys libs) (calling made) entries l
    let trace := Firsts.along (loading libs made) [] paths
    paths = entries.filter (fun p => decide ([46, 115, 111] <:+: p)) ∧
    done.1 = .ok () ∧ done.2.calls = l.calls ++ trace ∧
    trace.filterMap LoadEvent.opened? = paths ∧
    trace.filterMap LoadEvent.called? = factories libs paths ∧
    trace.filterMap LoadEvent.managed? =
      (madeHandlers libs made paths).map (fun h => .registerHandler (some h)) ∧
    done.2.world.manager.handlers = l.world.manager.handlers ++ madeHandlers libs made paths ∧
    (factories libs paths).Nodup ∧
    (∀ f, f ∈ factories libs paths ↔ ∃ p ∈ paths, (libs p).factory? = some f) ∧
    ∀ others : List Path, entries.Perm others →
      (madeHandlers libs made paths).Perm
        (madeHandlers libs made (getLibraryList others matchBlobHandler)) := by
  intro paths done trace
  obtain ⟨pending, run⟩ := loadEach_run libs made A clock [] paths l
  have reached : done = _ := run
  rw [reached]
  refine ⟨selected_paths entries, rfl, rfl, loading_opened libs made paths, loading_called libs made paths,
    loading_managed libs made paths, ?_, Firsts.nodup_firsts _ paths,
    fun f => Firsts.mem_firsts _, fun others perm => ?_⟩
  · rw [madeHandlers_along]
    rfl
  · exact (Firsts.firsts_perm _ (perm.filter matchBlobHandler)).filterMap _

end Loop

end PhosphorBlobs

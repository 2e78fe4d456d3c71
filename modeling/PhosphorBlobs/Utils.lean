import PhosphorBlobs.Manager

/-! Loading of the handler libraries, from utils.hpp, utils.cpp, fs.cpp and internal/sys.hpp.
Log entries are left out, but not the call of dlerror for one of them. -/
namespace PhosphorBlobs

/-- Whether std::string::find finds ".so". -/
def matchBlobHandler (filename : Path) : Bool :=
  filename.tails.any fun rest => [46, 115, 111].isPrefixOf rest

theorem matchBlobHandler_iff {filename : Path} :
    matchBlobHandler filename = true ↔ [46, 115, 111] <:+: filename := by
  simp only [matchBlobHandler, List.any_eq_true, List.mem_tails, List.isPrefixOf_iff_prefix,
    List.infix_iff_prefix_suffix]
  exact exists_congr fun rest => and_comm

/-- The entries are what the recursive_directory_iterator visits, in its order. -/
def getLibraryList (entries : List Path) (check : Path → Bool) : List Path :=
  entries.filter check

theorem selected_paths (entries : List Path) :
    getLibraryList entries matchBlobHandler =
      entries.filter fun p => decide ([46, 115, 111] <:+: p) := by
  refine List.filter_congr fun p _ => ?_
  rw [Bool.eq_iff_iff, matchBlobHandler_iff, decide_eq_true_iff]

/-- The dynamic loader, with library handles L and factories F. A null pointer is none. The
flags of dlopen are always the same and left out. -/
structure DlSysInterface (L F : Type) (m : Type → Type) where
  dlerror : m (Option String)
  dlopen : Path → m (Option L)
  dlsym : L → String → m (Option F)

/-- What the call of a factory comes to: a std::exception, or a pointer that may be null. -/
inductive Made (H : Type) where
  | exception
  | result (handler : Option H)

/-- A call through a factory pointer that is null. -/
inductive Crash where
  | nullFactory
  deriving DecidableEq

section Loading

variable {H L F : Type} {m : Type → Type} [Monad m] [DecidableEq F]

/-- One round of the loop. It hands on the set seen, also where the source continues. -/
def loadLibrary (manager : ManagerInterface H m) (sys : DlSysInterface L F m) (make : F → m (Made H))
    (p : Path) (seen : Finset (Option F)) : ExceptT Crash m (Finset (Option F)) := do
  match ← sys.dlopen p with
  | none =>
    let _ ← sys.dlerror
    return seen
  | some libHandle =>
    -- clears an error from before
    let _ ← sys.dlerror
    let factory ← sys.dlsym libHandle "createHandler"
    let error ← sys.dlerror
    if error.isSome then return seen
    else if factory ∈ seen then return seen
    else
      let seen := insert factory seen
      match factory with
      | none => throw .nullFactory
      | some factory =>
        match ← make factory with
        | .exception | .result none => return seen
        | .result (some handler) =>
          let _ ← manager (.registerHandler (some handler))
          return seen

def loadEach (manager : ManagerInterface H m) (sys : DlSysInterface L F m) (make : F → m (Made H)) :
    List Path → Finset (Option F) → ExceptT Crash m Unit
  | [], _ => return ()
  | p :: rest, seen => do
    let seen ← loadLibrary manager sys make p seen
    loadEach manager sys make rest seen

def loadLibraries (manager : ManagerInterface H m) (sys : DlSysInterface L F m)
    (make : F → m (Made H)) (entries : List Path) : ExceptT Crash m Unit := do
  let libs := getLibraryList entries matchBlobHandler
  loadEach manager sys make libs ∅

end Loading

end PhosphorBlobs

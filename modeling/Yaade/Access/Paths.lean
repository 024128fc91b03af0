import Yaade.Library.Except
import Mathlib.Tactic

/-!
Which directories a shell may start in.
-/

namespace Yaade.Access

open Yaade.Library List Option

inductive Component where
  | curDir
  | parentDir
  | normal (name : String)
  deriving DecidableEq

structure PathBuf where
  absolute : Bool
  components : List Component
  deriving DecidableEq

/-- What a place in the file system holds; a link holds the path it points to. -/
inductive Node where
  | directory
  | file
  | symlink (target : PathBuf)
  deriving DecidableEq

/-- What there is at each place below the root directory. -/
structure FileSystem where
  node : List String → Option Node

namespace FileSystem

variable (fs : FileSystem)

def Real (place : List String) : Prop :=
  ∀ count < place.length, fs.node (place.take (count + 1)) = some .directory

def isDir (place : List String) : Bool := place = [] || fs.node place = some .directory

def walk (follow : List String → List Component → Option (List String)) :
    List String → List Component → Option (List String)
  | place, [] => some place
  | place, .curDir :: rest => walk follow place rest
  | place, .parentDir :: rest => walk follow place.dropLast rest
  | place, .normal name :: rest =>
    match fs.node (place ++ [name]) with
    | none => none
    | some .directory => walk follow (place ++ [name]) rest
    | some .file => if rest = [] then some (place ++ [name]) else none
    | some (.symlink target) =>
      follow (if target.absolute then [] else place) (target.components ++ rest)

def resolve : Nat → List String → List Component → Option (List String)
  | 0 => fs.walk fun _ _ => none
  | links + 1 => fs.walk (resolve links)

end FileSystem

def maxLinks : Nat := 40

/-- The server process: its file system and the directory it runs in. -/
structure Process where
  fs : FileSystem
  cwd : List String
  real : fs.Real cwd

def Process.canonicalize (process : Process) (path : PathBuf) : Option (List String) :=
  if path.absolute then process.fs.resolve maxLinks [] path.components
  else if path.components = [] then none
  else process.fs.resolve maxLinks process.cwd path.components

/-! ## The check -/

def PathBuf.root : PathBuf := ⟨true, []⟩

def PathBuf.ofNames (names : List String) : PathBuf := ⟨true, names.map .normal⟩

def PathBuf.join (path other : PathBuf) : PathBuf :=
  if other.absolute then other else ⟨path.absolute, path.components ++ other.components⟩

def normalize : List String → List Component → List String
  | names, [] => names
  | names, .curDir :: rest => normalize names rest
  | names, .parentDir :: rest => normalize names.dropLast rest
  | names, .normal name :: rest => normalize (names ++ [name]) rest

def absolutePath (path cwd : PathBuf) : List String :=
  normalize [] (if path.absolute then path else cwd.join path).components

def existingAncestor (process : Process) : Nat → List String → Option (List String)
  | 0, names => process.canonicalize (.ofNames names)
  | count + 1, names =>
    match process.canonicalize (.ofNames names) with
    | some place => some place
    | none => existingAncestor process count names.dropLast

def canonicalExistingAncestor (process : Process) (path : PathBuf) : List String :=
  let names := absolutePath path .root
  (existingAncestor process names.length names).getD names

def canonicalRoot (process : Process) (root : PathBuf) : List String :=
  (process.canonicalize root).getD (absolutePath root .root)

def pathAllowed (process : Process) (candidate : PathBuf) (roots : List PathBuf) : Bool :=
  let candidate := canonicalExistingAncestor process candidate
  roots.any fun root => (canonicalRoot process root).isPrefixOf candidate

/-! ## The request -/

/-- `io` has the text of the operating system. -/
inductive CreateError where
  | invalid (message : String)
  | io
  | pathOutsideRoots
  deriving DecidableEq

def PathBuf.parse (value : List Char) : PathBuf :=
  ⟨value.head? = some '/', (value.splitOnP (· = '/')).filterMap fun part =>
    if part = [] then none
    else if part = ['.'] then some .curDir
    else if part = ['.', '.'] then some .parentDir
    else some (.normal (String.ofList part))⟩

def fileUriOrPath (toFilePath : String → Option PathBuf) (value : String) :
    Except CreateError PathBuf :=
  if "file:".toList.isPrefixOf value.toList then
    match toFilePath value with
    | some path => .ok path
    | none => .error (.invalid "invalid file URI")
  else .ok (.parse value.toList)

def createTerminal (process : Process) (cwd : PathBuf) : Except CreateError (List String) :=
  match process.canonicalize cwd with
  | none => .error .io
  | some place =>
    if process.fs.isDir place then .ok place
    else .error (.invalid "cwd is not a directory")

/-- `terminal:create` with its first argument; the launch options are read
between the check and the use. -/
def dispatchCreate (process : Process) (toFilePath : String → Option PathBuf)
    (allowedRoots : List PathBuf) (launch : Except CreateError Unit) (value : String) :
    Except CreateError (List String) := do
  let path ← fileUriOrPath toFilePath value
  if !pathAllowed process path allowedRoots then throw .pathOutsideRoots
  launch
  createTerminal process path

/-! ## Resolution -/

section Resolution

variable {fs : FileSystem}

theorem real_nil : fs.Real [] := fun _ h => absurd h (Nat.not_lt_zero _)

variable {place result : List String} {follow : List String → List Component → Option (List String)}
  (links : Nat) {components thinned : List Component}

theorem FileSystem.Real.dropLast (h : fs.Real place) : fs.Real place.dropLast := by
  intro count hcount
  rw [length_dropLast] at hcount
  have htake := h count (by omega)
  rw [dropLast_eq_take, take_take, Nat.min_eq_left (by omega)]
  exact htake

theorem FileSystem.Real.push {name : String} (h : fs.Real place)
    (hname : fs.node (place ++ [name]) = some .directory) : fs.Real (place ++ [name]) := by
  intro count hcount
  rw [length_append, length_singleton] at hcount
  by_cases hlast : count = place.length
  · subst hlast
    rw [take_of_length_le (by simp)]
    exact hname
  · rw [take_append_of_le_length (by omega)]
    exact h count (by omega)

def FileSystem.Canonical (fs : FileSystem) (place : List String) : Prop :=
  fs.Real place ∨ ∃ parent name, place = parent ++ [name] ∧ fs.Real parent ∧
    fs.node place = some .file

theorem walk_canonical (hfollow : ∀ place components result, fs.Real place →
      follow place components = some result → fs.Canonical result)
    (components : List Component) (hplace : fs.Real place)
    (hwalk : fs.walk follow place components = some result) : fs.Canonical result := by
  induction components generalizing place with
  | nil =>
    cases hwalk
    exact .inl hplace
  | cons component rest ih =>
    cases component with
    | curDir => exact ih hplace hwalk
    | parentDir => exact ih hplace.dropLast hwalk
    | normal name =>
      unfold FileSystem.walk at hwalk
      split at hwalk
      · cases hwalk
      · rename_i hnode
        exact ih (hplace.push hnode) hwalk
      · rename_i hnode
        split at hwalk
        · cases hwalk
          exact .inr ⟨place, name, rfl, hplace, hnode⟩
        · cases hwalk
      · refine hfollow _ _ _ ?_ hwalk
        split
        · exact real_nil
        · exact hplace

theorem resolve_canonical
    (hplace : fs.Real place) (hresolve : fs.resolve links place components = some result) :
    fs.Canonical result := by
  induction links generalizing place components result with
  | zero => exact walk_canonical (fun _ _ _ _ h => by cases h) components hplace hresolve
  | succ links ih => exact walk_canonical (fun _ _ _ h => ih h) components hplace hresolve

theorem canonicalize_canonical {process : Process} {path : PathBuf}
    (h : process.canonicalize path = some place) : process.fs.Canonical place := by
  unfold Process.canonicalize at h
  split at h
  · exact resolve_canonical maxLinks real_nil h
  split at h
  · cases h
  · exact resolve_canonical maxLinks process.real h

theorem walk_real (rest : List Component) (before names : List String)
    (h : fs.Real (before ++ names)) :
    fs.walk follow before (names.map .normal ++ rest) = fs.walk follow (before ++ names) rest := by
  induction names generalizing before with
  | nil => rw [append_nil, List.map_nil, nil_append]
  | cons name names ih =>
    have hnode := h before.length (by simp)
    rw [take_append, take_of_length_le (by omega),
      show before.length + 1 - before.length = 1 by omega] at hnode
    have hnext := ih (before ++ [name]) (by rw [append_assoc]; exact h)
    rw [map_cons, cons_append, FileSystem.walk]
    simp only [take_succ_cons, take_zero] at hnode
    rw [hnode]
    simp only
    rw [hnext, append_assoc]
    rfl

theorem resolve_self (h : fs.Canonical place) :
    fs.resolve links [] (place.map .normal) = some place := by
  have hwalk : ∀ follow, fs.walk follow [] (place.map .normal) = some place := by
    intro follow
    rcases h with hreal | ⟨parent, name, rfl, hparent, hfile⟩
    · have hself := @walk_real _ follow [] [] place hreal
      rw [append_nil] at hself
      rw [hself]
      rfl
    · rw [map_append, walk_real _ [] parent hparent]
      simp only [nil_append, map_cons, List.map_nil, FileSystem.walk]
      rw [hfile]
      simp
  cases links with
  | zero | succ => exact hwalk _

/-- The same components, some `.` left out. -/
inductive Thins : List Component → List Component → Prop where
  | nil : Thins [] []
  | keep (component : Component) {components thinned : List Component}
      (h : Thins components thinned) : Thins (component :: components) (component :: thinned)
  | skip {components thinned : List Component} (h : Thins components thinned) :
      Thins (.curDir :: components) thinned

theorem Thins.append (h : Thins components thinned)
    (first : List Component) : Thins (first ++ components) (first ++ thinned) := by
  induction first with
  | nil => exact h
  | cons component first ih => exact .keep component ih

theorem walk_thins (hfollow : ∀ place components thinned result, Thins components thinned →
      follow place components = some result → follow place thinned = some result)
    (h : Thins components thinned) (hwalk : fs.walk follow place components = some result) :
    fs.walk follow place thinned = some result := by
  induction h generalizing place with
  | nil => exact hwalk
  | skip h ih => exact ih hwalk
  | keep component h ih =>
    rename_i components thinned
    cases component with
    | curDir | parentDir => exact ih hwalk
    | normal name =>
      unfold FileSystem.walk at hwalk ⊢
      split at hwalk
      · cases hwalk
      · exact ih hwalk
      · split at hwalk
        · rename_i hnil
          subst hnil
          cases h
          exact hwalk
        · cases hwalk
      · exact hfollow _ _ _ _ (h.append _) hwalk

theorem resolve_thins (h : Thins components thinned)
    (hresolve : fs.resolve links place components = some result) :
    fs.resolve links place thinned = some result := by
  induction links generalizing components thinned place result with
  | zero => exact walk_thins (nofun) h hresolve
  | succ links ih =>
    have hfollow : ∀ place components thinned result, Thins components thinned →
        fs.resolve links place components = some result →
        fs.resolve links place thinned = some result := fun _ _ _ _ h hres => ih h hres
    exact walk_thins hfollow h hresolve

end Resolution

/-! ## Confinement -/

section Confinement

variable {process : Process} {toFilePath : String → Option PathBuf}
  {launch : Except CreateError Unit} {value : String} {path : PathBuf}

def Confined (process : Process) (toFilePath : String → Option PathBuf)
    (allowedRoots : List PathBuf) (launch : Except CreateError Unit) (value : String) : Prop :=
  ∀ directory, dispatchCreate process toFilePath allowedRoots launch value = .ok directory →
    ∃ root ∈ allowedRoots, canonicalRoot process root <+: directory

/-- Where the lexically normalized path leads: the deepest of its ancestors
that there is. -/
def LeadsTo (process : Process) (path : PathBuf) (place : List String) : Prop :=
  ∃ count ≤ (absolutePath path .root).length,
    process.canonicalize (.ofNames ((absolutePath path .root).take count)) = some place ∧
    ∀ more, count < more → more ≤ (absolutePath path .root).length →
      process.canonicalize (.ofNames ((absolutePath path .root).take more)) = none

/-- The path as it is given leads to a directory at or below the place that the
normalized path leads to. -/
def Agrees (process : Process) (path : PathBuf) : Prop :=
  ∀ directory place, process.canonicalize path = some directory →
    process.fs.isDir directory = true → LeadsTo process path place → place <+: directory

theorem existingAncestor_spec (process : Process) (count : Nat) (names : List String) (hcount : count = names.length) :
    ∃ place kept, existingAncestor process count names = some place ∧ kept ≤ names.length ∧
      process.canonicalize (.ofNames (names.take kept)) = some place ∧
      ∀ more, kept < more → more ≤ names.length →
        process.canonicalize (.ofNames (names.take more)) = none := by
  induction count generalizing names with
  | zero =>
    have hnil : names = [] := length_eq_zero_iff.mp hcount.symm
    subst hnil
    exact ⟨[], 0, rfl, le_rfl, rfl, fun more hmore hle => by simp at hle; omega⟩
  | succ count ih =>
    rw [existingAncestor]
    cases hthere : process.canonicalize (.ofNames names) with
    | some place =>
      refine ⟨place, names.length, rfl, le_rfl, ?_, fun more hmore hle => by omega⟩
      rw [take_length]
      exact hthere
    | none =>
      have hlength : names.dropLast.length = count := by
        rw [length_dropLast]
        omega
      have htake : ∀ kept, kept ≤ count → names.dropLast.take kept = names.take kept := by
        intro kept hkept
        rw [dropLast_eq_take, take_take, Nat.min_eq_left (by omega)]
      obtain ⟨place, kept, hplace, hkept, hthere', hgone⟩ := ih names.dropLast hlength.symm
      rw [hlength] at hkept
      rw [htake kept hkept] at hthere'
      refine ⟨place, kept, hplace, by omega, hthere', ?_⟩
      intro more hmore hle
      by_cases hall : more = names.length
      · rw [hall, take_length]
        exact hthere
      · rw [← htake more (by omega)]
        exact hgone more hmore (by omega)

theorem leadsTo_ancestor (process : Process) (path : PathBuf) :
    LeadsTo process path (canonicalExistingAncestor process path) := by
  obtain ⟨place, kept, hplace, hkept, hthere, hgone⟩ :=
    existingAncestor_spec process _ (absolutePath path .root) rfl
  have hsame : canonicalExistingAncestor process path = place := by
    unfold canonicalExistingAncestor
    simp only
    rw [hplace]
    rfl
  rw [hsame]
  exact ⟨kept, hkept, hthere, hgone⟩

theorem LeadsTo.unique {place other : List String} (h : LeadsTo process path place)
    (hother : LeadsTo process path other) : place = other := by
  obtain ⟨count, hcount, hthere, hgone⟩ := h
  obtain ⟨count', hcount', hthere', hgone'⟩ := hother
  have hsame : count = count' := by
    by_contra hne
    rcases Nat.lt_or_gt_of_ne hne with hlt | hgt
    · rw [hgone count' hlt hcount'] at hthere'
      cases hthere'
    · rw [hgone' count hgt hcount] at hthere
      cases hthere
  subst hsame
  rw [hthere] at hthere'
  exact Option.some.inj hthere'

theorem dispatchCreate_ok {allowedRoots : List PathBuf} {directory : List String} :
    dispatchCreate process toFilePath allowedRoots launch value = .ok directory ↔
      ∃ path, fileUriOrPath toFilePath value = .ok path ∧
        pathAllowed process path allowedRoots = true ∧ launch = .ok () ∧
        process.canonicalize path = some directory ∧ process.fs.isDir directory = true := by
  unfold dispatchCreate
  rw [bind_ok]
  constructor
  · rintro ⟨path, hpath, hrest⟩
    refine ⟨path, hpath, ?_⟩
    cases hallow : pathAllowed process path allowedRoots with
    | false =>
      rw [hallow] at hrest
      cases hrest
    | true =>
      rw [hallow] at hrest
      obtain ⟨done, hdone, hcreate⟩ := bind_ok.mp hrest
      unfold createTerminal at hcreate
      split at hcreate
      · cases hcreate
      rename_i place hplace
      split at hcreate
      · rename_i hdir
        cases hcreate
        exact ⟨rfl, hdone, hplace, hdir⟩
      · cases hcreate
  · rintro ⟨path, hpath, hallow, hlaunch, hplace, hdir⟩
    refine ⟨path, hpath, ?_⟩
    rw [hallow]
    refine bind_ok.mpr ⟨(), hlaunch, ?_⟩
    unfold createTerminal
    rw [hplace]
    simp only
    rw [if_pos hdir]

theorem canonicalRoot_self {place : List String} (h : process.fs.Canonical place) :
    canonicalRoot process (.ofNames place) = place := by
  unfold canonicalRoot Process.canonicalize PathBuf.ofNames
  rw [if_pos rfl, resolve_self maxLinks h]
  rfl

theorem normalize_thins (components : List Component) (names : List String)
    (hparent : .parentDir ∉ components) :
    ∃ more, normalize names components = names ++ more ∧ Thins components (more.map .normal) := by
  induction components generalizing names with
  | nil => exact ⟨[], by rw [normalize, append_nil], .nil⟩
  | cons component rest ih =>
    rw [mem_cons, not_or] at hparent
    cases component with
    | curDir =>
      obtain ⟨more, hmore, hthins⟩ := ih names hparent.2
      exact ⟨more, hmore, .skip hthins⟩
    | parentDir => exact absurd rfl hparent.1
    | normal name =>
      obtain ⟨more, hmore, hthins⟩ := ih (names ++ [name]) hparent.2
      refine ⟨name :: more, ?_, .keep _ hthins⟩
      rw [normalize, hmore, append_assoc]
      rfl

theorem agrees_plain (habsolute : path.absolute = true) (hparent : .parentDir ∉ path.components) :
    Agrees process path := by
  intro directory place hdirectory _ hplace
  obtain ⟨names, hnames, hthins⟩ := normalize_thins path.components [] hparent
  have hsame : absolutePath path .root = names := by
    unfold absolutePath
    rw [if_pos habsolute, hnames, nil_append]
  have hresolve : process.canonicalize (.ofNames names) = some directory := by
    unfold Process.canonicalize at hdirectory ⊢
    rw [if_pos habsolute] at hdirectory
    rw [if_pos (show (PathBuf.ofNames names).absolute = true from rfl)]
    exact resolve_thins maxLinks hthins hdirectory
  have hleads : LeadsTo process path directory := by
    refine ⟨names.length, by rw [hsame], ?_, fun more hmore hle => ?_⟩
    · rw [hsame, take_length]
      exact hresolve
    · rw [hsame] at hle
      omega
  rw [hplace.unique hleads]

end Confinement

def linkedFiles : FileSystem where
  node place :=
    if place = ["work"] ∨ place = ["etc"] ∨ place = ["etc", "sub"] then some .directory
    else if place = ["work", "link"] then some (.symlink (.ofNames ["etc", "sub"]))
    else none

def linkedProcess : Process := ⟨linkedFiles, [], real_nil⟩

end Yaade.Access

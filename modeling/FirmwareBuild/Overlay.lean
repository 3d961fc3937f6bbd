import FirmwareBuild.Host
import FirmwareBuild.Text.Utf8

/-! # The environment overlay

The variables that every launched command receives as its whole environment. The
overlay starts as the inherited environment; preparation writes to it and after
that it is only read. Names and values are octets, so a variable that is not
text reaches the commands untouched.

Variables are kept in the order of their names. Under the Windows rule two names
are one when they are text and differ at most in the case of ASCII letters. A
variable that is already there keeps its spelling whatever spelling it is written
under, and of several spellings of one name the first in the order counts. -/

namespace FirmwareBuild

/-- Variables in the order of their names, each name once, and whether the case of letters in
a name counts. -/
structure Overlay where
  vars : List (Bytes × Bytes)
  sorted : (vars.map Prod.fst).Pairwise (· < ·)
  ignoreCase : Bool

namespace Overlay

instance : DecidableEq Overlay := fun a b =>
  if h : a.vars = b.vars ∧ a.ignoreCase = b.ignoreCase then
    .isTrue (by cases a; cases b; simp_all)
  else .isFalse fun e => h (e ▸ ⟨rfl, rfl⟩)

def empty : Overlay := ⟨[], by simp, false⟩

instance : Inhabited Overlay := ⟨empty⟩

/-- The variables with `name` holding `value`, in order again. -/
def put (name value : Bytes) : List (Bytes × Bytes) → List (Bytes × Bytes)
  | [] => [(name, value)]
  | (n, v) :: rest =>
    if name < n then (name, value) :: (n, v) :: rest
    else if name = n then (name, value) :: rest
    else (n, v) :: put name value rest

theorem mem_names_put {name value k : Bytes} {vars : List (Bytes × Bytes)} :
    k ∈ (put name value vars).map Prod.fst ↔ k = name ∨ k ∈ vars.map Prod.fst := by
  induction vars with
  | nil => simp [put]
  | cons entry rest ih =>
    obtain ⟨n, v⟩ := entry
    simp only [put]
    split
    · simp
    · split
      · rename_i h; subst h; simp
      · simp only [List.map_cons, List.mem_cons, ih]
        exact ⟨fun h => h.elim (fun h => .inr (.inl h)) (fun h => h.imp_right .inr),
          fun h => h.elim (fun h => .inr (.inl h)) (fun h => h.imp_right .inr)⟩

theorem lt_of_not_lt {a b : Bytes} (h : ¬ a < b) (hne : a ≠ b) : b < a := by
  rcases Std.Trichotomous.rel_or_eq_or_rel_swap
    (r := (· < · : Bytes → Bytes → Prop)) (a := a) (b := b) with h' | h' | h'
  · exact absurd h' h
  · exact absurd h' hne
  · exact h'

theorem sorted_put {name value : Bytes} {vars : List (Bytes × Bytes)}
    (h : (vars.map Prod.fst).Pairwise (· < ·)) :
    ((put name value vars).map Prod.fst).Pairwise (· < ·) := by
  induction vars with
  | nil => simp [put]
  | cons entry rest ih =>
    obtain ⟨n, v⟩ := entry
    simp only [List.map_cons, List.pairwise_cons] at h
    simp only [put]
    split
    · rename_i hlt
      simp only [List.map_cons, List.pairwise_cons, List.mem_cons]
      exact ⟨fun k hk => hk.elim (fun e => e ▸ hlt) fun hk => List.lt_trans hlt (h.1 k hk), h⟩
    · split
      · rename_i he
        subst he
        simpa using h
      · rename_i hlt hne
        simp only [List.map_cons, List.pairwise_cons]
        refine ⟨fun k hk => ?_, ih h.2⟩
        rcases mem_names_put.1 hk with hk | hk
        · exact hk ▸ lt_of_not_lt hlt hne
        · exact h.1 k hk

def insert (env : Overlay) (name value : Bytes) : Overlay :=
  { env with vars := put name value env.vars, sorted := sorted_put env.sorted }

/-- The overlay of some variables. Of two values for a name the later one counts. -/
def ofList (vars : List (Bytes × Bytes)) : Overlay :=
  vars.foldl (fun env (name, value) => env.insert name value) empty

/-- The name and the value in an inherited string: an equals sign stands between them. One at the
very start belongs to the name, and a string without any is no variable. -/
def variableOf? : Bytes → Option (Bytes × Bytes)
  | [] => none
  | first :: rest =>
    (Text.splitFirst? 0x3D rest).map fun (name, value) => (first :: name, value)

def ofStrings (strings : List Bytes) : Overlay := ofList (strings.filterMap variableOf?)

/-- Whether the variable stored as `stored` is the one called `name`. -/
def sameName (ignoreCase : Bool) (stored : Bytes) (name : Text) : Bool :=
  if ignoreCase then (Utf8.decode? stored).any (Text.sameLetters · name)
  else stored == Utf8.encode name

/-- The naming rule of a host: only Windows ignores the case of letters. -/
def setHost (env : Overlay) (host : Host) : Overlay :=
  { env with ignoreCase := host == .windows }

def spelling? (env : Overlay) (name : Text) : Option Bytes :=
  (env.vars.map Prod.fst).find? (sameName env.ignoreCase · name)

/-- The value stored under exactly this spelling. -/
def lookup (env : Overlay) (name : Bytes) : Option Bytes := env.vars.lookup name

def getBytes? (env : Overlay) (name : Text) : Option Bytes :=
  (env.spelling? name).bind env.lookup

/-- The value of the variable called `name`, if it is text. -/
def get? (env : Overlay) (name : Text) : Option Text :=
  (env.getBytes? name).bind Utf8.decode?

def contains (env : Overlay) (name : Text) : Bool := (env.spelling? name).isSome

/-- Sets the variable called `name`, which keeps the spelling it has. -/
def set (env : Overlay) (name : Text) (value : Bytes) : Overlay :=
  env.insert ((env.spelling? name).getD (Utf8.encode name)) value

def setText (env : Overlay) (name value : Text) : Overlay := env.set name (Utf8.encode value)

/-- Sets the variable called `name` unless it is there, whatever it holds. -/
def setDefault (env : Overlay) (name : Text) (value : Bytes) : Overlay :=
  if env.contains name then env else env.set name value

def pathName : Text := "PATH".toList

/-- A search path with `directory` at its end, unless it is among the entries already. An empty
search path has no entries to be separated from. -/
def appendEntry (separator : Char) (path : Bytes) (directory : Text) : Bytes :=
  (if path.isEmpty then [] else path ++ Utf8.encode [separator]) ++ Utf8.encode directory

/-- Puts a directory at the end of the search path, unless it is listed. -/
def appendPath (env : Overlay) (host : Host) (directory : Text) : Overlay :=
  let path := (env.getBytes? pathName).getD []
  if (Text.split host.listSeparator (Utf8.decodeLossy path)).contains directory then env
  else env.set pathName (appendEntry host.listSeparator path directory)

/-- The variables that are not in `base` with the same spelling and value. -/
def changesSince (env base : Overlay) : List (Bytes × Bytes) :=
  env.vars.filter fun (name, value) => base.lookup name != some value

end Overlay

end FirmwareBuild

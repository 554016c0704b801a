import DelegatedFetch.Proofs.Settings.Expansion
import DelegatedFetch.Settings.Load

/-!
# Which environment file has its way

A file sets the variables only that are not set yet. So what the process has set
stays; and where several files assign a variable, the first one of them in the
list has its way, and in that file the first line. What the line brings in from
other variables is looked up as they are when it is read.

Which variables a file assigns does not depend on what is set: a reference
changes the value of a line, but not whether the line can be read.
-/

namespace DelegatedFetch

namespace EnvironmentFile

variable {env : Environment} {name value : String} {text : String} {texts : List String}

/-- The lines of a file, those that quotes hold together as one. -/
def lines (text : String) : List (Option (List Char)) :=
  logicalLines .complete [] (physicalLines (dropMark text.toList))

/-- The name that a line assigns, if it can be read and assigns any. -/
def assigned? (line : List Char) : Option (Option String) :=
  (assignment? .empty line).map (·.map (·.1))

/-- The names that are assigned before the first malformed line. -/
def names : List (Option (List Char)) → List String
  | some line :: rest =>
    match assigned? line with
    | some (some name) => name :: names rest
    | some none => names rest
    | none => []
  | _ => []

/-- A file assigns a variable. -/
def Defines (text name : String) : Prop := name ∈ names (lines text)

instance (text name : String) : Decidable (Defines text name) :=
  inferInstanceAs (Decidable (name ∈ names (lines text)))

/-- The value that lines give a variable which are read in an environment: that of the first line
that assigns it. The lines before it may have set other variables. -/
def firstValue? (name : String) : Environment → List (Option (List Char)) → Option String
  | env, some line :: rest =>
    match assignment? env line with
    | some (some (other, value)) =>
      if other = name then some value else firstValue? name (env.setMissing [(other, value)]) rest
    | some none => firstValue? name env rest
    | none => none
  | _, _ => none

/-- The value that a file gives a variable when it is loaded in an environment. -/
def value? (env : Environment) (text name : String) : Option String :=
  firstValue? name env (lines text)

theorem isSome_cons (c : Option Char) (cs : Option (List Char)) :
    (do return (← c) :: (← cs) : Option (List Char)).isSome = (c.isSome && cs.isSome) := by
  cases c <;> cases cs <;> rfl

/-- Whether a value can be read does not depend on what the references in it stand for. -/
theorem isSome_valueChars? (resolve resolve' : List Char → List Char) (mode : ValueMode)
    (cs : List Char) :
    (valueChars? resolve mode cs).isSome = (valueChars? resolve' mode cs).isSome := by
  fun_induction valueChars? resolve mode cs
  case case13 ih => rw [valueChars?, isSome_cons, isSome_cons, ih]
  all_goals grind [valueChars?]

/-- A line assigns the same name whatever is set. -/
theorem assigned?_eq (env : Environment) (line : List Char) :
    assigned? line = (assignment? env line).map (·.map (·.1)) := by
  rw [assigned?, assignment?, assignment?]
  split
  · rfl
  cases cutAssignment? (strip isBlank line) with
  | none => rfl
  | some cut =>
    obtain ⟨name, text⟩ := cut
    simp only [Option.bind_eq_bind, Option.bind_some]
    split
    · rfl
    have readable := isSome_valueChars?
      (fun name => ((Table.empty.find? (String.ofList name)).getD "").toList)
      (fun name => ((env.find? (String.ofList name)).getD "").toList)
      (.text false) (text.dropWhile isBlank)
    revert readable
    rcases valueChars? _ _ _ with - | value <;> rcases valueChars? _ _ _ with - | value'
    · exact fun _ => rfl
    · intro unlike
      simp at unlike
    · intro unlike
      simp at unlike
    · exact fun _ => rfl

/-- A file gives a value to the variables that it assigns, and to no other. -/
theorem isSome_firstValue? (name : String) (env : Environment) (ls : List (Option (List Char))) :
    (firstValue? name env ls).isSome = true ↔ name ∈ names ls := by
  induction ls generalizing env with
  | nil => simp [firstValue?, names]
  | cons line rest ih =>
    cases line with
    | none => simp [firstValue?, names]
    | some line =>
      rw [firstValue?, names, assigned?_eq env]
      rcases assignment? env line with - | - | ⟨other, value⟩
      · simp
      · exact ih env
      · by_cases here : other = name
        · simp [here]
        · simp [here, ih, Ne.symm here]

theorem find?_setMissing (env : Environment) (name other value : String) :
    (env.setMissing [(other, value)]).find? name =
      (env.find? name).or (if other = name then some value else none) := by
  have single : env.setMissing [(other, value)] =
      if env.contains other then env else env.insert other value := rfl
  rw [single]
  split
  · rename_i set
    obtain ⟨old, set⟩ := Option.isSome_iff_exists.1 set
    by_cases same : other = name
    · subst same
      rw [set, Option.some_or]
    · rw [if_neg same, Option.or_none]
  · rename_i unset
    rw [Table.contains, Option.not_isSome_iff_eq_none] at unset
    rw [Table.find?_insert]
    by_cases same : other = name
    · subst same
      rw [unset, if_pos rfl, Option.none_or]
    · rw [if_neg same, if_neg (Ne.symm same), Option.or_none]

/-- What is set stays, and all else gets its first value. -/
theorem find?_loadLines (name : String) (env : Environment) (ls : List (Option (List Char))) :
    (loadLines env ls).find? name = (env.find? name).or (firstValue? name env ls) := by
  induction ls generalizing env with
  | nil => simp [loadLines, firstValue?]
  | cons line rest ih =>
    cases line with
    | none => simp [loadLines, firstValue?]
    | some line =>
      rw [loadLines, firstValue?]
      rcases assignment? env line with - | - | ⟨other, value⟩
      · simp
      · exact ih env
      · by_cases here : other = name
        · simp only [ih, find?_setMissing, if_pos here]
          cases env.find? name <;> rfl
        · simp only [ih, find?_setMissing, if_neg here, Option.or_none]

theorem find?_load (env : Environment) (text name : String) :
    (load env text).find? name = (env.find? name).or (value? env text name) :=
  find?_loadLines name env (lines text)

theorem value?_eq_none_iff : value? env text name = none ↔ ¬ Defines text name := by
  rw [Defines, ← isSome_firstValue? name env, ← value?, Option.not_isSome_iff_eq_none]

theorem find?_load_of_set (set : env.find? name = some value) :
    (load env text).find? name = some value := by
  rw [find?_load, set, Option.some_or]

/-- An environment after some files, one after the other. -/
def loadAll (env : Environment) (texts : List String) : Environment := texts.foldl load env

/-- What is set stays, whatever files are loaded. -/
theorem find?_loadAll_of_set (set : env.find? name = some value) :
    (loadAll env texts).find? name = some value := by
  induction texts generalizing env with
  | nil => exact set
  | cons text rest ih => exact ih (find?_load_of_set set)

/-- What no file assigns is as it was. -/
theorem find?_loadAll_of_not_defines (undefined : ∀ text ∈ texts, ¬ Defines text name) :
    (loadAll env texts).find? name = env.find? name := by
  induction texts generalizing env with
  | nil => rfl
  | cons text rest ih =>
    have missing : value? env text name = none :=
      value?_eq_none_iff.2 (undefined text List.mem_cons_self)
    have same : (loadAll (load env text) rest).find? name = (load env text).find? name :=
      ih fun text mem => undefined text (List.mem_cons_of_mem _ mem)
    rw [find?_load, missing, Option.or_none] at same
    exact same

/-- The first file that assigns a variable gives it its value, if it was not set before. -/
theorem find?_loadAll_of_first {before : List String} (after : List String)
    (unset : env.find? name = none)
    (earlier : ∀ t ∈ before, ¬ Defines t name) (defines : Defines text name) :
    ∃ value, value? (loadAll env before) text name = some value ∧
      (loadAll env (before ++ text :: after)).find? name = some value := by
  have still : (loadAll env before).find? name = none := by
    rw [find?_loadAll_of_not_defines earlier, unset]
  obtain ⟨value, given⟩ : ∃ value, value? (loadAll env before) text name = some value := by
    rw [← Option.ne_none_iff_exists', Ne, value?_eq_none_iff, Decidable.not_not]
    exact defines
  have set : (load (loadAll env before) text).find? name = some value := by
    rw [find?_load, still, Option.none_or, given]
  refine ⟨value, given, ?_⟩
  rw [loadAll, List.foldl_append, List.foldl_cons]
  exact find?_loadAll_of_set set

/-- Among files of which one assigns a variable, there is a first one that does. -/
theorem exists_first (defined : ∃ text ∈ texts, Defines text name) : ∃ before text after,
    texts = before ++ text :: after ∧ (∀ t ∈ before, ¬ Defines t name) ∧ Defines text name := by
  obtain ⟨text, mem, defines⟩ := defined
  obtain ⟨first, found⟩ : ∃ first, texts.find? (Defines · name) = some first := by
    rw [← Option.isSome_iff_exists, List.find?_isSome]
    exact ⟨text, mem, by simpa using defines⟩
  obtain ⟨defines, before, after, split, earlier⟩ := List.find?_eq_some_iff_append.1 found
  exact ⟨before, first, after, split, by simpa using earlier, by simpa using defines⟩

end EnvironmentFile

namespace Environment

/-- A reference to a variable, without a default. -/
def reference (name : String) : String := String.ofList ('$' :: '{' :: (name.toList ++ ['}']))

/-- A reference stands for what is set, and for nothing if nothing is. -/
theorem expand_reference (env : Environment) {name : String} (named : IsName name) :
    env.expand (reference name) = (env.find? name).getD "" := by
  have replaced := env.expandChars_mention ⟨name, none, named, nofun⟩ []
  rw [List.append_nil, expandChars_nil, List.append_nil] at replaced
  rw [expand, reference, String.toList_ofList]
  exact (congrArg String.ofList replaced).trans String.ofList_toList

end Environment

namespace Settings

open EnvironmentFile Environment

variable {m : Type → Type} [Monad m] {readFile : String → m (Except ReadError String)}
  {env : Environment} {paths texts : List String} {name : String}

/-- The texts of the files that paths name, when they are read in turn. A file that cannot be read
is skipped. What a file sets may tell where the home directory is. -/
inductive Reads (readFile : String → m (Except ReadError String)) :
    Environment → List String → List String → Prop
  | none {env : Environment} : Reads readFile env [] []
  | file {env : Environment} {path text : String} {paths texts : List String}
      (found : readFile (homePath env path) = pure (.ok text))
      (rest : Reads readFile (EnvironmentFile.load env text) paths texts) :
      Reads readFile env (path :: paths) (text :: texts)
  | skipped {env : Environment} {path : String} {e : ReadError} {paths texts : List String}
      (missing : readFile (homePath env path) = pure (.error e))
      (rest : Reads readFile env paths texts) : Reads readFile env (path :: paths) texts

theorem loadEnvFiles_of_reads [LawfulMonad m] (reads : Reads readFile env paths texts) :
    loadEnvFiles readFile env paths = pure (loadAll env texts) := by
  induction reads with
  | none => rfl
  | file found rest ih =>
    rw [loadEnvFiles, found, pure_bind]
    exact ih
  | skipped missing rest ih =>
    rw [loadEnvFiles, missing, pure_bind]
    exact ih

/-- A variable that was not set gets its value from the first file that assigns it, whatever files
come after; and a reference to it stands for that value. -/
theorem first_file_wins [LawfulMonad m] (reads : Reads readFile env paths texts)
    (unset : env.find? name = none) (defined : ∃ text ∈ texts, Defines text name) :
    ∃ before text after value, texts = before ++ text :: after ∧
      (∀ t ∈ before, ¬ Defines t name) ∧ Defines text name ∧
      value? (loadAll env before) text name = some value ∧
      loadEnvFiles readFile env paths = pure (loadAll env texts) ∧
      (loadAll env texts).find? name = some value ∧
      (IsName name → (loadAll env texts).expand (reference name) = value) := by
  obtain ⟨before, text, after, rfl, earlier, defines⟩ := exists_first defined
  obtain ⟨value, given, set⟩ := find?_loadAll_of_first after unset earlier defines
  refine ⟨before, text, after, value, rfl, earlier, defines, given, loadEnvFiles_of_reads reads,
    set, fun named => ?_⟩
  rw [expand_reference _ named, set, Option.getD_some]

/-- Two files that assign one variable. -/
def twoFiles (path : String) : Id (Except ReadError String) :=
  if path = "first.env" then .ok "KEY=first"
  else if path = "second.env" then .ok "KEY=second"
  else .error .missing

theorem isName_key : IsName "KEY" :=
  ⟨'K', ['E', 'Y'], rfl, rfl, List.forall_mem_cons.2 ⟨rfl, List.forall_mem_singleton.2 rfl⟩⟩

theorem reads_twoFiles :
    Reads twoFiles .empty ["first.env", "second.env"] ["KEY=first", "KEY=second"] :=
  .file rfl (.file rfl .none)

/-- The variable has the value of the first file. -/
theorem first_file_wins_two : ∃ value, value? .empty "KEY=first" "KEY" = some value ∧
    loadEnvFiles twoFiles .empty ["first.env", "second.env"] =
      pure (loadAll .empty ["KEY=first", "KEY=second"]) ∧
    (loadAll .empty ["KEY=first", "KEY=second"]).expand (reference "KEY") = value := by
  have first : Defines "KEY=first" "KEY" := by decide +kernel
  obtain ⟨before, text, after, value, split, earlier, -, given, loaded, -, expanded⟩ :=
    first_file_wins reads_twoFiles rfl ⟨_, List.mem_cons_self, first⟩
  cases before with
  | nil =>
    obtain ⟨rfl, -⟩ := List.cons.inj split
    exact ⟨value, given, loaded, expanded isName_key⟩
  | cons t before =>
    obtain ⟨rfl, -⟩ := List.cons.inj split
    exact absurd first (earlier _ List.mem_cons_self)

/-- The last file that assigns the variable gives it another value. -/
theorem last_file_loses : Defines "KEY=second" "KEY" ∧
    value? (loadAll .empty ["KEY=first"]) "KEY=second" "KEY" = some "second" ∧
    loadEnvFiles twoFiles .empty ["first.env", "second.env"] =
      pure (loadAll .empty ["KEY=first", "KEY=second"]) ∧
    (loadAll .empty ["KEY=first", "KEY=second"]).find? "KEY" = some "first" ∧
    (loadAll .empty ["KEY=first", "KEY=second"]).expand (reference "KEY") = "first" := by
  have set : (loadAll .empty ["KEY=first", "KEY=second"]).find? "KEY" = some "first" := by
    decide +kernel
  refine ⟨by decide +kernel, by decide +kernel, loadEnvFiles_of_reads reads_twoFiles, set, ?_⟩
  rw [expand_reference _ isName_key, set, Option.getD_some]

end Settings
end DelegatedFetch

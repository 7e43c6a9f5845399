import ThreadIpc.File.Directories

/-!
# What is created

The path is put together again from the root, so that the directories grow there. That they are the
right ones is certain only for a path that starts there.
-/

namespace ThreadIpc.File

open Lib ConvertUtf

def OnTheWay (env : Environment) (path : String16) (loc : List Name) : Prop :=
  ∃ front names, front <+: SplitPath path ∧
    List.Forall₂ (fun c name => string16ToUTF8 c = some name) front names ∧
    loc = FileTree.locate (if path.head? = some kPathSeparator then [] else env.cwd)
      (names.map component)

def KeepsPromise (env : Environment) (fs : FileTree Name) (path : String16) : Prop :=
  ((RecursivelyCreateDir env fs path).1 = some true →
    DirectoryExists env (RecursivelyCreateDir env fs path).2 path = true) ∧
  ∀ loc, (RecursivelyCreateDir env fs path).2.kind loc ≠ fs.kind loc → OnTheWay env path loc

def fromRoot (components : List String16) : List Name := (components.map encodeUnits).reverse

def joined (components : List String16) : String16 := components.flatMap (kPathSeparator :: ·)

def Spelled (env : Environment) (path : String16) : Prop :=
  ∃ bytes, string16ToUTF8 path = some bytes ∧ env.fits bytes

def Refused (env : Environment) (fs : FileTree Name) (front : List String16) (it : String16) :
    Prop :=
  (it = [46] ∨ it = [46, 46]) ∨ ¬ Spelled env (joined (front ++ [it])) ∨
    env.maySearch (fromRoot front) = false ∨
    fs.kind (fromRoot (front ++ [it])) = some .file ∨
    (fs.kind (fromRoot (front ++ [it])) = none ∧
      env.mayCreate (fromRoot (front ++ [it])) = false)

/-- On its way from the root to a component that is refused, the function creates nothing but what
it has been asked for. -/
def StopsInTime (env : Environment) (fs : FileTree Name) (path : String16) : Prop :=
  ∃ n it, (SplitPath path)[n]? = some it ∧ Refused env fs ((SplitPath path).take n) it ∧
    ∀ dir, dir <:+ fromRoot ((SplitPath path).take n) → fs.kind dir = none → OnTheWay env path dir

def Rooted (env : Environment) (path : String16) : Prop :=
  path.head? = some kPathSeparator ∨ env.cwd = []

section Spelling

variable {env : Environment} {text : String16}

theorem fields_encodeUnits (paired : isPaired text = true) :
    fields slash (encodeUnits text) = (SplitPath text).map encodeUnits := by
  have ascii : kPathSeparator.toNat < 0x80 := by decide
  apply fields_map (fun text => isPaired text = true) rfl
  · intro front rest paired
    exact encodeUnits_append ascii paired
  · intro field paired absent some_
    exact ⟨not_mem_encodeUnits ascii absent, encodeUnits_ne_nil paired some_⟩
  · exact paired

theorem start_encodeUnits (paired : isPaired text = true) :
    env.start (encodeUnits text) =
      if text.head? = some kPathSeparator then [] else env.cwd := by
  have ascii : kPathSeparator.toNat < 0x80 := by decide
  rw [Environment.start]
  cases text with
  | nil => rfl
  | cons ch rest =>
      obtain ⟨byte, bytes, encoded, small, large⟩ := encodeUnits_cons paired
      have same : byte = slash ↔ ch = kPathSeparator := by
        by_cases isAscii : ch.toNat < 0x80
        · rw [(small isAscii).1]
          exact ⟨fun first => toUInt8_inj isAscii ascii first, fun same => same ▸ rfl⟩
        · constructor
          · rintro rfl
            exact absurd (large (Nat.not_lt.mp isAscii)) (by decide)
          · rintro rfl
            exact absurd ascii isAscii
      simp only [encoded, List.head?_cons, Option.some.injEq, same]

theorem component_encodeUnits (paired : isPaired text = true)
    (noDot : ¬(text = [46] ∨ text = [46, 46])) :
    component (encodeUnits text) = .name (encodeUnits text) := by
  have one : encodeUnits text ≠ [46] := fun same =>
    noDot (.inl (eq_of_encodeUnits_ascii (by simp) paired same))
  have two : encodeUnits text ≠ [46, 46] := fun same =>
    noDot (.inr (eq_of_encodeUnits_ascii (by simp) paired same))
  rw [component, if_neg one, if_neg two]

theorem mem_splitPath {path : String16} :
    ∀ it ∈ SplitPath path, it ≠ [] ∧ kPathSeparator ∉ it := mem_fields

theorem splitPath_joined {components : List String16}
    (each : ∀ it ∈ components, it ≠ [] ∧ kPathSeparator ∉ it) :
    SplitPath (joined components) = components :=
  fields_joined each

theorem joined_concat (front : List String16) (it : String16) :
    joined (front ++ [it]) = joined front ++ [kPathSeparator] ++ it := by
  simp [joined]

theorem fromRoot_concat (front : List String16) (it : String16) :
    fromRoot (front ++ [it]) = encodeUnits it :: fromRoot front := by
  simp [fromRoot]

end Spelling

section Loop

variable {env : Environment} {fs : FileTree Name} {front rest : List String16} {it : String16}

structure Plain (front : List String16) : Prop where
  each : ∀ it ∈ front, it ≠ [] ∧ kPathSeparator ∉ it
  names : front.map (component ∘ encodeUnits) = (front.map encodeUnits).map .name
  converted : ∀ it ∈ front, string16ToUTF8 it = some (encodeUnits it)

theorem plain_nil : Plain [] := ⟨by simp, rfl, by simp⟩

theorem converted_of_joined {bytes : Name}
    (spelled : string16ToUTF8 (joined (front ++ [it])) = some bytes) :
    string16ToUTF8 it = some (encodeUnits it) := by
  obtain ⟨paired, short, _⟩ := string16ToUTF8_some_iff.mp spelled
  rw [joined_concat, List.append_assoc, List.singleton_append] at paired short
  rw [List.length_append, List.length_cons] at short
  exact string16ToUTF8_some_iff.mpr
    ⟨(encodeUnits_append (by decide) paired).2.1, by omega, rfl⟩

theorem Plain.concat (plain : Plain front) (field : it ≠ [] ∧ kPathSeparator ∉ it)
    (noDot : ¬(it = [46] ∨ it = [46, 46])) (converted : string16ToUTF8 it = some (encodeUnits it)) :
    Plain (front ++ [it]) where
  each := by
    rw [List.forall_mem_append, List.forall_mem_singleton]
    exact ⟨plain.each, field⟩
  names := by
    rw [List.map_append, List.map_append, List.map_append, plain.names, List.map_singleton,
      List.map_singleton, List.map_singleton, Function.comp_apply,
      component_encodeUnits (string16ToUTF8_some_iff.mp converted).1 noDot]
  converted := by
    rw [List.forall_mem_append, List.forall_mem_singleton]
    exact ⟨plain.converted, converted⟩

theorem Plain.components (plain : Plain front) (some_ : front ≠ []) {bytes : Name}
    (spelled : string16ToUTF8 (joined front) = some bytes) :
    env.start bytes = [] ∧
      (fields slash bytes).map component = (front.map encodeUnits).map .name := by
  obtain ⟨paired, _, rfl⟩ := string16ToUTF8_some_iff.mp spelled
  rw [start_encodeUnits paired, fields_encodeUnits paired, splitPath_joined plain.each,
    List.map_map, plain.names]
  obtain ⟨first, others, rfl⟩ := List.exists_cons_of_ne_nil some_
  exact ⟨if_pos rfl, rfl⟩

def SearchableTo (env : Environment) (front : List String16) : Prop :=
  FileTree.Searchable env.maySearch [] (fromRoot front)

theorem searchableTo_nil (env : Environment) : SearchableTo env [] := by
  rintro dir - above proper
  exact absurd (List.suffix_nil.mp above) proper

theorem SearchableTo.concat (searchable : SearchableTo env front)
    (search : env.maySearch (fromRoot front) = true) : SearchableTo env (front ++ [it]) := by
  rw [SearchableTo, fromRoot_concat]
  intro dir below above proper
  rcases List.suffix_cons_iff.mp above with same | above
  · exact absurd same proper
  · by_cases last : dir = fromRoot front
    · rw [last]
      exact search
    · exact searchable dir below above last

theorem stat_joined (plain : Plain front) (searchable : SearchableTo env front) (some_ : front ≠ [])
    {bytes : Name} (spelled : string16ToUTF8 (joined front) = some bytes) (fits : env.fits bytes) :
    stat env fs bytes = fs.kind (fromRoot front) := by
  obtain ⟨start, components⟩ := plain.components some_ spelled
  rw [SearchableTo, ← List.append_nil (fromRoot front)] at searchable
  rw [stat, if_pos fits, start, components, ← List.append_nil (fromRoot front)]
  exact FileTree.walk_names_kind searchable

theorem mkdir_joined (plain : Plain (front ++ [it])) (searchable : SearchableTo env front)
    {bytes : Name} (spelled : string16ToUTF8 (joined (front ++ [it])) = some bytes)
    (fits : env.fits bytes) :
    mkdir env (fs.grow (fromRoot front)) bytes =
      if env.maySearch (fromRoot front) = true then
        if fs.kind (fromRoot (front ++ [it])) ≠ none then .exists_
        else if env.mayCreate (fromRoot (front ++ [it])) = true then
          .made (fs.grow (fromRoot (front ++ [it])))
        else .refused
      else .refused := by
  obtain ⟨start, components⟩ := plain.components (by simp) spelled
  rw [List.map_append, List.map_singleton] at components
  rw [mkdir, if_pos fits, start, components, fromRoot_concat]
  exact FileTree.mkdir_grow (front.map encodeUnits) (encodeUnits it) searchable

theorem directoryExists_joined (plain : Plain front) (searchable : SearchableTo env front)
    (some_ : front ≠ []) (spelled : Spelled env (joined front)) :
    DirectoryExists env fs (joined front) = true ↔
      fs.kind (fromRoot front) = some .directory := by
  obtain ⟨bytes, spelled, fits⟩ := spelled
  rw [DirectoryExists, spelled]
  simp only [stat_joined plain searchable some_ spelled fits, decide_eq_true_eq]

theorem createDirs_spelled (field : it ≠ [] ∧ kPathSeparator ∉ it) (plain : Plain front)
    (searchable : SearchableTo env front) (noDot : ¬(it = [46] ∨ it = [46, 46]))
    (spelled : Spelled env (joined (front ++ [it]))) :
    createDirs env (fs.grow (fromRoot front)) (joined front) (it :: rest) =
      if env.maySearch (fromRoot front) = true ∧
          (fs.kind (fromRoot (front ++ [it])) = some .directory ∨
            fs.kind (fromRoot (front ++ [it])) = none ∧
              env.mayCreate (fromRoot (front ++ [it])) = true) then
        createDirs env (fs.grow (fromRoot (front ++ [it]))) (joined (front ++ [it])) rest
      else (some false, fs.grow (fromRoot front)) := by
  obtain ⟨bytes, converted, fits⟩ := spelled
  have plain := plain.concat field noDot (converted_of_joined converted)
  have badlyFormed : ¬(it = [] ∨ it = [46] ∨ it = [46, 46]) := by
    simp only [field.1, false_or, noDot, not_false_eq_true]
  rw [createDirs, if_neg badlyFormed, ← joined_concat]
  simp only [converted, mkdir_joined plain searchable converted fits]
  by_cases search : env.maySearch (fromRoot front) = true
  · rw [if_pos search]
    have exists_ := @directoryExists_joined env (fs.grow (fromRoot front)) _ plain
      (searchable.concat search) (by simp) ⟨bytes, converted, fits⟩
    rw [fromRoot_concat, FileTree.kind_grow_cons, ← fromRoot_concat] at exists_
    cases kind : fs.kind (fromRoot (front ++ [it])) with
    | none => by_cases create : env.mayCreate (fromRoot (front ++ [it])) = true <;> simp [search, create]
    | some kind' =>
        simp only [kind, Option.some.injEq] at exists_
        cases kind' with
        | file => simp [exists_]
        | directory =>
            have grown : fs.grow (fromRoot (front ++ [it])) = fs.grow (fromRoot front) := by
              rw [fromRoot_concat] at kind ⊢
              exact fs.grow_cons_of_exists kind
            simp [exists_, search, grown]
  · simp [search]

theorem createDirs_refused (field : it ≠ [] ∧ kPathSeparator ∉ it) (plain : Plain front)
    (searchable : SearchableTo env front) (refused : Refused env fs front it) :
    ∃ result, result ≠ some true ∧
      createDirs env (fs.grow (fromRoot front)) (joined front) (it :: rest) =
        (result, fs.grow (fromRoot front)) := by
  by_cases noDot : it = [46] ∨ it = [46, 46]
  · refine ⟨if env.asserts then none else some false, ?_, ?_⟩
    · split <;> simp
    · rw [createDirs, if_pos (.inr noDot)]
  by_cases spelled : Spelled env (joined (front ++ [it]))
  · refine ⟨some false, by simp, ?_⟩
    rw [createDirs_spelled field plain searchable noDot spelled, if_neg]
    rintro ⟨search, rest⟩
    rcases refused with dot | unspelled | unsearchable | file | ⟨missing, uncreatable⟩
    · exact noDot dot
    · exact unspelled spelled
    · cases search.symm.trans unsearchable
    · simp [file] at rest
    · simp [missing, uncreatable] at rest
  · refine ⟨some false, by simp, ?_⟩
    have badlyFormed : ¬(it = [] ∨ it = [46] ∨ it = [46, 46]) := by
      simp only [field.1, false_or, noDot, not_false_eq_true]
    rw [createDirs, if_neg badlyFormed, ← joined_concat]
    simp only
    cases converted : string16ToUTF8 (joined (front ++ [it])) with
    | none => rfl
    | some bytes =>
        have unfit : ¬ env.fits bytes := fun fits => spelled ⟨bytes, converted, fits⟩
        simp only [mkdir, if_neg unfit]

theorem createDirs_passed (field : it ≠ [] ∧ kPathSeparator ∉ it) (plain : Plain front)
    (searchable : SearchableTo env front) (passes : ¬ Refused env fs front it) :
    createDirs env (fs.grow (fromRoot front)) (joined front) (it :: rest) =
      createDirs env (fs.grow (fromRoot (front ++ [it]))) (joined (front ++ [it])) rest := by
  simp only [Refused, not_or, not_not, not_and, Bool.not_eq_false] at passes
  obtain ⟨noDot, spelled, search, noFile, create⟩ := passes
  rw [createDirs_spelled field plain searchable (not_or.mpr noDot) spelled, if_pos]
  refine ⟨search, ?_⟩
  cases kind : fs.kind (fromRoot (front ++ [it])) with
  | none => exact .inr ⟨rfl, create kind⟩
  | some kind' =>
      cases kind' with
      | file => exact absurd kind noFile
      | directory => exact .inl rfl

end Loop

section Run

variable {env : Environment} {fs : FileTree Name} {path : String16}

def RefusedAt (env : Environment) (fs : FileTree Name) (path : String16) (n : Nat) : Prop :=
  ∃ it, (SplitPath path)[n]? = some it ∧ Refused env fs ((SplitPath path).take n) it

theorem createDirs_run {n : Nat} (inside : n ≤ (SplitPath path).length)
    (passes : ∀ m < n, ¬ RefusedAt env fs path m) :
    Plain ((SplitPath path).take n) ∧ SearchableTo env ((SplitPath path).take n) ∧
      createDirs env fs [] (SplitPath path) =
        createDirs env (fs.grow (fromRoot ((SplitPath path).take n)))
          (joined ((SplitPath path).take n)) ((SplitPath path).drop n) := by
  induction n with
  | zero =>
      refine ⟨plain_nil, searchableTo_nil env, ?_⟩
      rw [List.take_zero, List.drop_zero, show fromRoot [] = [] from rfl, FileTree.grow_nil]
      rfl
  | succ n ih =>
      obtain ⟨plain, searchable, same⟩ := ih (Nat.le_of_succ_le inside)
        fun m before => passes m (Nat.lt_succ_of_lt before)
      have here := List.getElem?_eq_getElem (show n < (SplitPath path).length from inside)
      set it := (SplitPath path)[n]
      have taken : (SplitPath path).take (n + 1) = (SplitPath path).take n ++ [it] :=
        (List.take_append_getElem inside).symm
      have field := mem_splitPath it (List.mem_of_getElem? here)
      have passes : ¬ Refused env fs ((SplitPath path).take n) it := fun refused =>
        passes n (Nat.lt_succ_self n) ⟨it, here, refused⟩
      rw [List.drop_eq_getElem_cons inside, createDirs_passed field plain searchable passes,
        ← taken] at same
      simp only [Refused, not_or, not_not, Bool.not_eq_false] at passes
      obtain ⟨noDot, ⟨bytes, spelled, _⟩, search, _⟩ := passes
      rw [taken] at same ⊢
      exact ⟨plain.concat field (not_or.mpr noDot) (converted_of_joined spelled),
        searchable.concat search, same⟩

theorem recursivelyCreateDir_stops {n : Nat} (missing : DirectoryExists env fs path = false)
    (passes : ∀ m < n, ¬ RefusedAt env fs path m) (refused : RefusedAt env fs path n) :
    ∃ result, result ≠ some true ∧ RecursivelyCreateDir env fs path =
      (result, fs.grow (fromRoot ((SplitPath path).take n))) := by
  obtain ⟨it, here, refused⟩ := refused
  obtain ⟨inside, value⟩ := List.getElem?_eq_some_iff.mp here
  obtain ⟨plain, searchable, same⟩ := createDirs_run (Nat.le_of_lt inside) passes
  have field := mem_splitPath it (List.mem_of_getElem? here)
  rw [RecursivelyCreateDir, missing, if_neg Bool.false_ne_true, same,
    List.drop_eq_getElem_cons inside, value]
  exact createDirs_refused field plain searchable refused

theorem recursivelyCreateDir_passes (missing : DirectoryExists env fs path = false)
    (passes : ∀ m, ¬ RefusedAt env fs path m) :
    Plain (SplitPath path) ∧ SearchableTo env (SplitPath path) ∧
      RecursivelyCreateDir env fs path = (some true, fs.grow (fromRoot (SplitPath path))) := by
  have run := createDirs_run (Nat.le_refl _) fun m _ => passes m
  rw [List.take_length, List.drop_length] at run
  obtain ⟨plain, searchable, same⟩ := run
  refine ⟨plain, searchable, ?_⟩
  rw [RecursivelyCreateDir, missing, if_neg Bool.false_ne_true, same]
  rfl

theorem exists_take_of_suffix {components : List String16} {loc : List Name}
    (suffix : loc <:+ fromRoot components) :
    ∃ m ≤ components.length, loc = fromRoot (components.take m) := by
  have front := List.prefix_iff_eq_take.mp (List.reverse_prefix.mpr suffix)
  rw [fromRoot, List.reverse_reverse, List.length_reverse, ← List.map_take] at front
  have length := suffix.length_le
  rw [fromRoot, List.length_reverse, List.length_map] at length
  refine ⟨loc.length, length, ?_⟩
  rw [fromRoot, ← front, List.reverse_reverse]

theorem fromRoot_suffix {components : List String16} {m n : Nat} (before : m ≤ n) :
    fromRoot (components.take m) <:+ fromRoot (components.take n) := by
  rw [fromRoot, fromRoot, List.reverse_suffix]
  exact (List.take_prefix_take_left before).map encodeUnits

theorem kind_of_changed {n : Nat} (inside : n ≤ (SplitPath path).length)
    (passes : ∀ m < n, ¬ RefusedAt env fs path m) {loc : List Name}
    (changed : (fs.grow (fromRoot ((SplitPath path).take n))).kind loc ≠ fs.kind loc) :
    loc <:+ fromRoot ((SplitPath path).take n) ∧ fs.kind loc = none := by
  by_cases suffix : loc <:+ fromRoot ((SplitPath path).take n)
  · refine ⟨suffix, ?_⟩
    have notDirectory : fs.kind loc ≠ some .directory := fun directory =>
      changed ((if_pos suffix).trans directory.symm)
    obtain ⟨m, before, rfl⟩ := exists_take_of_suffix suffix
    rw [List.length_take, Nat.min_eq_left inside] at before
    rw [List.take_take, Nat.min_eq_left before] at notDirectory ⊢
    cases m with
    | zero => exact absurd fs.root notDirectory
    | succ m =>
        have here := List.getElem?_eq_getElem (show m < (SplitPath path).length by omega)
        have passed := passes m before
        cases kind : fs.kind (fromRoot ((SplitPath path).take (m + 1))) with
        | none => rfl
        | some kind' =>
            cases kind' with
            | directory => exact absurd kind notDirectory
            | file =>
                rw [← List.take_append_getElem (show m < (SplitPath path).length by omega)] at kind
                exact absurd ⟨_, here, .inr (.inr (.inr (.inl kind)))⟩ passed
  · exact absurd (if_neg suffix) changed

theorem changed_of_none {components : List String16} {loc : List Name}
    (suffix : loc <:+ fromRoot components) (none_ : fs.kind loc = none) :
    (fs.grow (fromRoot components)).kind loc ≠ fs.kind loc := by
  rw [none_, show (fs.grow (fromRoot components)).kind loc = some .directory from if_pos suffix]
  exact Option.some_ne_none _

theorem Rooted.start (rooted : Rooted env path) :
    (if path.head? = some kPathSeparator then [] else env.cwd) = [] := by
  split
  · rfl
  · rename_i relative
    exact rooted.resolve_left relative

theorem Rooted.onTheWay (rooted : Rooted env path) {n : Nat}
    (plain : Plain ((SplitPath path).take n)) {loc : List Name}
    (suffix : loc <:+ fromRoot ((SplitPath path).take n)) : OnTheWay env path loc := by
  obtain ⟨m, _, rfl⟩ := exists_take_of_suffix suffix
  set front := (SplitPath path).take n
  refine ⟨front.take m, (front.take m).map encodeUnits,
    (List.take_prefix m front).trans (List.take_prefix n _), ?_, ?_⟩
  · rw [List.forall₂_map_right_iff, List.forall₂_same]
    exact fun it member => plain.converted it (List.mem_of_mem_take member)
  · have names := congrArg (List.take m) plain.names
    rw [← List.map_take, ← List.map_take, ← List.map_take] at names
    rw [rooted.start, List.map_map, names, FileTree.locate_names, List.append_nil]
    rfl

theorem stat_path {tree : FileTree Name} (plain : Plain (SplitPath path)) {bytes : Name}
    (spelled : string16ToUTF8 path = some bytes) (fits : env.fits bytes) :
    stat env tree bytes =
      (tree.walk env.maySearch (if path.head? = some kPathSeparator then [] else env.cwd)
        (((SplitPath path).map encodeUnits).map .name)).bind tree.kind := by
  obtain ⟨paired, _, rfl⟩ := string16ToUTF8_some_iff.mp spelled
  rw [stat, if_pos fits, start_encodeUnits paired, fields_encodeUnits paired, List.map_map,
    plain.names]

theorem directory_of_grown (plain : Plain (SplitPath path)) {bytes : Name}
    (spelled : string16ToUTF8 path = some bytes) (fits : env.fits bytes)
    (unrooted : ¬ Rooted env path)
    (found : stat env (fs.grow (fromRoot (SplitPath path))) bytes = some .directory) :
    stat env fs bytes = some .directory := by
  obtain ⟨relative, away⟩ := not_or.mp unrooted
  rw [stat_path plain spelled fits, if_neg relative] at found
  obtain ⟨loc, walked, directory⟩ := Option.bind_eq_some_iff.mp found
  obtain ⟨rfl, searchable, _⟩ := FileTree.walk_names_iff.mp walked
  have beyond : ¬ fromRoot (SplitPath path) ++ env.cwd <:+ fromRoot (SplitPath path) := by
    intro suffix
    have length := suffix.length_le
    have positive := List.length_pos_iff.mpr away
    rw [List.length_append] at length
    omega
  have directory : fs.kind (fromRoot (SplitPath path) ++ env.cwd) = some .directory :=
    (if_neg beyond).symm.trans directory
  have walked := FileTree.walk_names_iff.mpr
    ⟨rfl, searchable, .inr (by rw [← fromRoot, directory]; exact Option.some_ne_none _)⟩
  rw [stat_path plain spelled fits, if_neg relative, walked, Option.bind_some]
  exact directory

theorem directoryExists_grown (missing : DirectoryExists env fs path = false)
    (plain : Plain (SplitPath path)) (searchable : SearchableTo env (SplitPath path)) :
    DirectoryExists env (fs.grow (fromRoot (SplitPath path))) path = true ↔
      Rooted env path ∧ Spelled env path := by
  rw [DirectoryExists] at missing ⊢
  cases converted : string16ToUTF8 path with
  | none =>
      simp only [Bool.false_eq_true, false_iff]
      rintro ⟨_, bytes, spelled, _⟩
      cases converted.symm.trans spelled
  | some bytes =>
      have spelled : Spelled env path ↔ env.fits bytes := by
        simp only [Spelled, converted, Option.some.injEq, exists_eq_left']
      simp only [converted, decide_eq_false_iff_not] at missing
      simp only [decide_eq_true_eq, spelled]
      constructor
      · intro found
        have fits : env.fits bytes := by
          by_contra unfit
          rw [stat, if_neg unfit] at found
          cases found
        refine ⟨?_, fits⟩
        by_contra unrooted
        exact missing (directory_of_grown plain converted fits unrooted found)
      · rintro ⟨rooted, fits⟩
        rw [SearchableTo, ← List.append_nil (fromRoot (SplitPath path))] at searchable
        rw [stat_path plain converted fits, rooted.start]
        refine (FileTree.walk_names_kind searchable).trans ?_
        rw [List.append_nil]
        exact fs.kind_grow_self _

end Run

/-- Exactly if the directory is there already, or the path starts at the root and can be given to the
system, or nothing else is created before a component is refused. -/
theorem keepsPromise_iff (env : Environment) (fs : FileTree Name) (path : String16) :
    KeepsPromise env fs path ↔
      DirectoryExists env fs path = true ∨ (Rooted env path ∧ Spelled env path) ∨
        StopsInTime env fs path := by
  by_cases exists_ : DirectoryExists env fs path = true
  · have done : RecursivelyCreateDir env fs path = (some true, fs) := by
      rw [RecursivelyCreateDir, if_pos exists_]
    refine iff_of_true ⟨?_, ?_⟩ (.inl exists_)
    · rw [done]
      exact fun _ => exists_
    · rw [done]
      exact fun loc changed => absurd rfl changed
  have missing := Bool.eq_false_of_not_eq_true exists_
  rw [or_iff_right exists_]
  by_cases stops : ∃ n, RefusedAt env fs path n
  · classical
    have passes (m : Nat) (before : m < Nat.find stops) := Nat.find_min stops before
    have refused := Nat.find_spec stops
    set n := Nat.find stops
    obtain ⟨result, notTrue, done⟩ := recursivelyCreateDir_stops missing passes refused
    obtain ⟨it, here, refused⟩ := refused
    have inside := Nat.le_of_lt (List.getElem?_eq_some_iff.mp here).1
    rw [KeepsPromise, done]
    constructor
    · rintro ⟨_, created⟩
      refine .inr ⟨n, it, here, refused, fun dir suffix none_ => ?_⟩
      exact created dir (changed_of_none suffix none_)
    · intro expected
      refine ⟨fun returned => absurd returned notTrue, fun loc changed => ?_⟩
      obtain ⟨suffix, none_⟩ := kind_of_changed inside passes changed
      rcases expected with ⟨rooted, _⟩ | ⟨n', it', here', refused', created⟩
      · exact rooted.onTheWay (createDirs_run inside passes).1 suffix
      · have later : n ≤ n' := by
          by_contra before
          exact passes n' (Nat.lt_of_not_le before) ⟨it', here', refused'⟩
        exact created loc (suffix.trans (fromRoot_suffix later)) none_
  · have passes (m : Nat) : ¬ RefusedAt env fs path m := fun refused => stops ⟨m, refused⟩
    obtain ⟨plain, searchable, done⟩ := recursivelyCreateDir_passes missing passes
    have noStop : ¬ StopsInTime env fs path := by
      rintro ⟨n, it, here, refused, _⟩
      exact passes n ⟨it, here, refused⟩
    rw [KeepsPromise, done, or_iff_left noStop]
    simp only [true_imp_iff, directoryExists_grown missing plain searchable]
    refine and_iff_left_of_imp fun rootedAndSpelled loc changed => ?_
    have all := (SplitPath path).take_length
    have suffix := (@kind_of_changed env fs path _ (Nat.le_refl _) (fun m _ => passes m) loc
      (by rw [all]; exact changed)).1
    exact rootedAndSpelled.1.onTheWay (by rw [all]; exact plain) suffix

section Relative

def inC : Environment where
  cwd := [[99]]
  pathMax := 4096
  maySearch _ := true
  mayCreate _ := true
  asserts := true

def onlyRoot : FileTree Name where
  kind loc := if loc = [] then some .directory else none
  root := rfl
  parent _ _ exists_ := absurd rfl exists_

def relativePath : String16 := [97]

theorem splitPath_relativePath : SplitPath relativePath = [[97]] :=
  fields_field (by decide) (by decide)

theorem spelled_ascii {text : String16} (ascii : ∀ unit ∈ text, unit.toNat < 0x80)
    (some_ : text ≠ []) (short : text.length < 4096) : Spelled inC text := by
  have few : ¬ intMax / 4 < text.length := by
    rw [intMax]
    omega
  refine ⟨narrow text, by rw [string16ToUTF8_ascii ascii, if_neg few], ?_, ?_⟩
  · rw [narrow, Ne, List.map_eq_nil_iff]
    exact some_
  · rw [narrow, List.length_map]
    exact short

theorem relativePath_passes (m : Nat) : ¬ RefusedAt inC (onlyRoot.grow [[99]]) relativePath m := by
  rintro ⟨it, here, refused⟩
  rw [splitPath_relativePath, List.getElem?_singleton] at here
  split at here
  · rename_i zero
    cases here
    rw [zero, List.take_zero] at refused
    have ascii : ∀ unit ∈ joined ([] ++ [[97]]), unit.toNat < 0x80 :=
      List.forall_mem_cons.mpr ⟨by decide, List.forall_mem_singleton.mpr (by decide)⟩
    have nothing : (onlyRoot.grow [[99]]).kind (fromRoot ([] ++ [[97]])) = none := by decide
    rcases refused with dot | unspelled | unsearchable | file | ⟨_, uncreatable⟩
    · exact absurd dot (by decide)
    · exact unspelled (spelled_ascii ascii (by decide) (by decide))
    · cases unsearchable
    · cases nothing.symm.trans file
    · cases uncreatable
  · cases here

theorem relative_path_is_created_at_root :
    RecursivelyCreateDir inC (onlyRoot.grow [[99]]) relativePath =
        (some true, (onlyRoot.grow [[99]]).grow [[97]]) ∧
      ¬ KeepsPromise inC (onlyRoot.grow [[99]]) relativePath := by
  have relative : ¬ relativePath.head? = some kPathSeparator := by decide
  have unrooted : ¬ Rooted inC relativePath := by
    rintro (absolute | root)
    · exact relative absolute
    · cases root
  have run := @createDirs_run inC (onlyRoot.grow [[99]]) relativePath _ (Nat.le_refl _)
    fun m _ => relativePath_passes m
  rw [List.take_length] at run
  have missing : DirectoryExists inC (onlyRoot.grow [[99]]) relativePath = false := by
    obtain ⟨bytes, spelled, fits⟩ := @spelled_ascii relativePath
      (List.forall_mem_singleton.mpr (by decide)) (by decide) (by decide)
    rw [DirectoryExists, spelled]
    simp only [stat_path run.1 spelled fits, if_neg relative, splitPath_relativePath]
    decide
  obtain ⟨plain, searchable, done⟩ := recursivelyCreateDir_passes missing relativePath_passes
  have grown := directoryExists_grown missing plain searchable
  rw [splitPath_relativePath] at done grown
  refine ⟨done, fun keeps => ?_⟩
  rw [KeepsPromise, done] at keeps
  exact unrooted (grown.mp (keeps.1 rfl)).1

end Relative

end ThreadIpc.File

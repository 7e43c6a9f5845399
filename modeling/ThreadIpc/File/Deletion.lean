import ThreadIpc.File.Directories

/-!
# What is deleted

Whatever the names are and whichever call fails, nothing goes but what is below the directory. Where the
names are UTF-8 and no call fails, all of that goes.
-/

namespace ThreadIpc.File

open Lib ConvertUtf

variable {env : DeleteEnvironment} {disk after : Disk} {path name : Name} {loc top : List Name}

section Within

def target (env : DeleteEnvironment) (path : Name) : List Name :=
  FileTree.locate (env.start path) ((fields slash path).map component)

theorem resolve_target (resolved : resolve env disk path = some loc) : loc = target env path := by
  rw [resolve] at resolved
  split at resolved
  · exact FileTree.walk_locate resolved
  · cases resolved

theorem resolve_ne_nil (resolved : resolve env disk path = some loc) : path ≠ [] := by
  rw [resolve] at resolved
  split at resolved
  · rename_i fits
    exact fits.1
  · cases resolved

theorem Legal.component (legal : Legal name) : component name = .name name := by
  rw [File.component, if_neg legal.2.2.1, if_neg legal.2.2.2]

theorem fields_entry (legal : Legal name) (path : Name) :
    (fields slash (path ++ slash :: name)).map component =
      (fields slash path).map component ++ [.name name] := by
  rw [fields_concat legal.2.1 legal.1, List.map_append, List.map_singleton, legal.component]

theorem start_entry (some_ : path ≠ []) (name : Name) :
    env.start (path ++ slash :: name) = env.start path := by
  obtain ⟨c, rest, rfl⟩ := List.exists_cons_of_ne_nil some_
  rfl

theorem target_entry (some_ : path ≠ []) (legal : Legal name) :
    target env (path ++ slash :: name) = name :: target env path := by
  rw [target, fields_entry legal, start_entry some_, FileTree.locate, List.foldl_append]
  rfl

/-- Nothing has changed outside of `top`, and nothing is new. -/
def Within (top : List Name) (disk after : Disk) : Prop :=
  ∀ loc, after.kind loc = disk.kind loc ∨ after.kind loc = none ∧ top <:+ loc

theorem Within.refl (top : List Name) (disk : Disk) : Within top disk disk := fun _ => .inl rfl

theorem Within.trans {middle : Disk} (first : Within top disk middle) (later : Within top middle after) :
    Within top disk after := by
  intro loc
  rcases later loc with same | gone
  · rw [same]
    exact first loc
  · exact .inr gone

theorem Within.mono {inner : List Name} (within : Within inner disk after) (below : top <:+ inner) :
    Within top disk after :=
  fun loc => (within loc).imp_right fun gone => ⟨gone.1, below.trans gone.2⟩

theorem within_without {proper : loc ≠ []} {empty : ∀ name, disk.kind (name :: loc) = none} :
    Within loc disk (disk.without loc proper empty) := by
  intro other
  by_cases gone : other = loc
  · exact .inr ⟨if_pos gone, gone ▸ List.suffix_refl _⟩
  · exact .inl (if_neg gone)

theorem unlink_within (unlinked : unlink env disk path = some after) :
    Within (target env path) disk after := by
  rw [unlink] at unlinked
  split at unlinked
  · cases unlinked
  · rename_i loc resolved
    split at unlinked
    · cases unlinked
      exact resolve_target resolved ▸ within_without
    · cases unlinked

theorem rmdir_within (removed : rmdir env disk path = some after) :
    Within (target env path) disk after ∧ after.kind (target env path) = none := by
  rw [rmdir] at removed
  split at removed
  · cases removed
  · rename_i loc resolved
    split at removed
    · cases removed
      rw [← resolve_target resolved]
      exact ⟨within_without, if_pos rfl⟩
    · cases removed

theorem deleteEntries_within {recursively : Name → Disk → Option Bool × Disk}
    {contents : List (Name × Bool)}
    (legal : ∀ it ∈ contents, Legal it.1) (some_ : path ≠ [])
    (inner : ∀ path disk, Within (target env path) disk (recursively path disk).2) :
    Within (target env path) disk (deleteEntries env recursively path contents disk).2 := by
  induction contents generalizing disk with
  | nil => exact .refl _ _
  | cons it rest ih =>
      have later (disk : Disk) := @ih disk fun other inside => legal other (List.mem_cons_of_mem _ inside)
      have below : target env path <:+ target env (path ++ slash :: it.1) := by
        rw [target_entry some_ (legal it List.mem_cons_self)]
        exact List.suffix_cons _ _
      rw [deleteEntries]
      split
      · have called := inner (path ++ slash :: it.1) disk
        split
        · rename_i middle returned
          rw [returned] at called
          exact (called.mono below).trans (later middle)
        · exact called.mono below
      · split
        · exact .refl _ _
        · rename_i middle unlinked
          exact ((unlink_within unlinked).mono below).trans (later middle)

theorem ReadDir_legal {path16 : String16} {contents : List (Name × Bool)}
    (read : ReadDir env disk path16 = some contents) :
    (∀ it ∈ contents, Legal it.1) ∧ ∃ path, string16ToUTF8 path16 = some path ∧ path ≠ [] := by
  rw [ReadDir] at read
  split at read
  · cases read
  · rename_i path converted
    split at read
    · cases read
    · rename_i loc resolved
      split at read
      · cases read
        refine ⟨fun it inside => ?_, path, converted, resolve_ne_nil resolved⟩
        obtain ⟨name, listed, rfl⟩ := List.mem_map.mp inside
        exact disk.legal name loc ((disk.listed name loc).mp listed)
      · cases read

theorem deleteRecursivelyImpl_within (depth : Nat) (path : Name) (disk : Disk) :
    Within (target env path) disk (DeleteRecursivelyImpl env depth path disk).2 ∧
      ((DeleteRecursivelyImpl env depth path disk).1 = some true →
        (DeleteRecursivelyImpl env depth path disk).2.kind (target env path) = none) := by
  induction depth generalizing path disk with
  | zero => exact ⟨.refl _ _, nofun⟩
  | succ depth ih =>
      rw [DeleteRecursivelyImpl]
      split
      · exact ⟨.refl _ _, nofun⟩
      · rename_i path16 converted
        split
        · exact ⟨.refl _ _, nofun⟩
        · rename_i contents read
          obtain ⟨legal, back, converted', some_⟩ := ReadDir_legal read
          have nonempty : path ≠ [] := by
            rintro rfl
            cases converted
            cases converted'
            exact some_ rfl
          have looped := @deleteEntries_within env disk path _ _ legal nonempty fun path disk =>
            (ih path disk).1
          split
          · rename_i middle returned
            rw [returned] at looped
            split
            · exact ⟨looped, nofun⟩
            · rename_i last removed
              obtain ⟨within, gone⟩ := rmdir_within removed
              exact ⟨looped.trans within, fun _ => gone⟩
          · rename_i stopped
            exact ⟨looped, fun success => (stopped _ (Prod.ext success rfl)).elim⟩

section Returns

theorem deleteEntries_returns {recursively : Name → Disk → Option Bool × Disk}
    {contents : List (Name × Bool)}
    (returns : ∀ it ∈ contents, ∀ disk, (recursively (path ++ slash :: it.1) disk).1 ≠ none)
    (disk : Disk) :
    (deleteEntries env recursively path contents disk).1 ≠ none := by
  induction contents generalizing disk with
  | nil => exact Option.some_ne_none _
  | cons it rest ih =>
      have later := ih fun other inside => returns other (List.mem_cons_of_mem _ inside)
      rw [deleteEntries]
      split
      · split
        · exact later _
        · exact returns it List.mem_cons_self disk
      · split
        · exact Option.some_ne_none _
        · exact later _

theorem deleteRecursivelyImpl_returns (depth : Nat) (path : Name) (disk : Disk)
    (deep : env.pathMax ≤ path.length + depth) :
    (DeleteRecursivelyImpl env (depth + 1) path disk).1 ≠ none := by
  induction depth generalizing path disk with
  | zero =>
      rw [DeleteRecursivelyImpl]
      split
      · exact Option.some_ne_none _
      · rename_i path16 converted
        have long : ReadDir env disk path16 = none := by
          rw [ReadDir]
          split
          · rfl
          · rename_i back written
            have length := length_of_back converted written
            rw [resolve, if_neg]
            rintro ⟨-, short⟩
            omega
        rw [long]
        exact Option.some_ne_none _
  | succ depth ih =>
      rw [DeleteRecursivelyImpl]
      split
      · exact Option.some_ne_none _
      · split
        · exact Option.some_ne_none _
        · rename_i contents read
          have looped := @deleteEntries_returns env path (DeleteRecursivelyImpl env (depth + 1)) contents
            (fun it _ disk => ih (path ++ slash :: it.1) disk (by
              rw [List.length_append, List.length_cons]
              omega)) disk
          split
          · split
            · exact Option.some_ne_none _
            · exact Option.some_ne_none _
          · exact looped

end Returns

end Within

section All

def pathTo (path : Name) : List Name → Name
  | [] => path
  | name :: dir => pathTo path dir ++ slash :: name

theorem pathTo_append (path : Name) (inner dir : List Name) :
    pathTo (pathTo path dir) inner = pathTo path (inner ++ dir) := by
  induction inner with
  | nil => rfl
  | cons name inner ih => rw [pathTo, ih, List.cons_append, pathTo]

/-- The path comes back from its conversion to UTF-16. -/
def Converts (path : Name) : Prop := ∃ text, path = utf8 text ∧ (utf16 text).length ≤ intMax / 4

/-- What no call fails on, on the way through a directory and all that is below it. -/
structure Deletable (env : DeleteEnvironment) (disk : Disk) (path : Name) (loc : List Name) : Prop where
  names : ∃ names, names ≠ [] ∧ (fields slash path).map component = names.map .name ∧
    loc = names.reverse ++ env.start path
  searchable : FileTree.Searchable env.maySearch (env.start path) loc
  directory : disk.kind loc = some .directory
  deletable : ∀ inner, disk.kind (inner ++ loc) ≠ none →
    env.fits (pathTo path inner) ∧ env.mayDelete (inner ++ loc) = true
  readable : ∀ inner, disk.kind (inner ++ loc) = some .directory → Converts (pathTo path inner) ∧
    env.maySearch (inner ++ loc) = true ∧ env.mayRead (inner ++ loc) = true
  typed : ∀ inner, inner ≠ [] → disk.kind (inner ++ loc) = some .directory → env.typed = true

namespace Deletable

theorem proper (deletable : Deletable env disk path loc) : loc ≠ [] := by
  obtain ⟨names, some_, -, rfl⟩ := deletable.names
  simp [some_]

theorem isThere (deletable : Deletable env disk path loc) : disk.kind loc ≠ none := by
  rw [deletable.directory]
  exact Option.some_ne_none _

theorem resolves (deletable : Deletable env disk path loc) (exists_ : after.kind loc ≠ none) :
    resolve env after path = some loc := by
  obtain ⟨names, -, components, same⟩ := deletable.names
  have fits : env.fits path := (deletable.deletable [] deletable.isThere).1
  rw [resolve, if_pos fits, components]
  exact FileTree.walk_names_iff.mpr ⟨same, deletable.searchable, .inr exists_⟩

theorem path_ne_nil (deletable : Deletable env disk path loc) : path ≠ [] :=
  resolve_ne_nil (deletable.resolves deletable.isThere)

theorem read (deletable : Deletable env disk path loc) :
    ∃ path16, utf8ToString16 path = some path16 ∧
      ReadDir env disk path16 = some ((disk.entries loc).map fun name =>
        (name, decide (disk.kind (name :: loc) = some .directory))) := by
  obtain ⟨⟨text, same, short⟩, -, readable⟩ := deletable.readable [] deletable.directory
  have same : path = utf8 text := same
  have back : string16ToUTF8 (utf16 text) = some path :=
    string16ToUTF8_eq_some_iff.mpr ⟨short, text, rfl, same⟩
  have readable : env.mayRead loc = true := readable
  refine ⟨utf16 text, same ▸ utf8ToString16_utf8 text, ?_⟩
  simp only [ReadDir, back, deletable.resolves deletable.isThere]
  rw [if_pos ⟨deletable.directory, readable⟩]
  refine congrArg some (List.map_congr_left fun name _ => congrArg (name, ·) ?_)
  by_cases inside : disk.kind (name :: loc) = some .directory
  · rw [deletable.typed [name] (List.cons_ne_nil _ _) inside, Bool.true_and]
  · simp [inside]

theorem names_entry (deletable : Deletable env disk path loc) (legal : Legal name) :
    ∃ names, names ≠ [] ∧ (fields slash (path ++ slash :: name)).map component = names.map .name ∧
      name :: loc = names.reverse ++ env.start (path ++ slash :: name) := by
  obtain ⟨names, -, components, same⟩ := deletable.names
  refine ⟨names ++ [name], by simp, ?_, ?_⟩
  · rw [fields_entry legal, components, List.map_append]
    rfl
  · rw [start_entry deletable.path_ne_nil, List.reverse_append, same]
    rfl

theorem searchable_entry (deletable : Deletable env disk path loc) (name : Name) :
    FileTree.Searchable env.maySearch (env.start (path ++ slash :: name)) (name :: loc) := by
  rw [start_entry deletable.path_ne_nil]
  intro dir from_ above proper
  rcases List.suffix_cons_iff.mp above with rfl | above
  · exact absurd rfl proper
  · by_cases here : dir = loc
    · rw [here]
      exact (deletable.readable [] deletable.directory).2.1
    · exact deletable.searchable dir from_ above here

theorem entry (deletable : Deletable env disk path loc) {name : Name}
    (same : ∀ inner, after.kind (inner ++ name :: loc) = disk.kind (inner ++ name :: loc))
    (directory : disk.kind (name :: loc) = some .directory) :
    Deletable env after (path ++ slash :: name) (name :: loc) := by
  have exists_ : disk.kind (name :: loc) ≠ none := by
    rw [directory]
    exact Option.some_ne_none _
  have inside (inner : List Name) : inner ++ name :: loc = inner ++ [name] ++ loc := List.append_cons ..
  have below (inner : List Name) : pathTo (path ++ slash :: name) inner = pathTo path (inner ++ [name]) :=
    pathTo_append path inner [name]
  refine ⟨deletable.names_entry (disk.legal name loc exists_), deletable.searchable_entry name, ?_,
    fun inner there => ?_, fun inner there => ?_, fun inner _ there => ?_⟩
  · exact (same []).trans directory
  · rw [same, inside] at there
    rw [below, inside]
    exact deletable.deletable (inner ++ [name]) there
  · rw [same, inside] at there
    rw [below, inside]
    exact deletable.readable (inner ++ [name]) there
  · rw [same, inside] at there
    exact deletable.typed (inner ++ [name]) (by simp) there

theorem unlink_entry (deletable : Deletable env disk path loc) {name : Name}
    (same : after.kind (name :: loc) = disk.kind (name :: loc))
    (file : disk.kind (name :: loc) = some .file) :
    ∃ last, unlink env after (path ++ slash :: name) = some last ∧
      ∀ l, last.kind l = if l = name :: loc then none else after.kind l := by
  have exists_ : disk.kind (name :: loc) ≠ none := by
    rw [file]
    exact Option.some_ne_none _
  obtain ⟨fits, mayDelete⟩ := deletable.deletable [name] exists_
  have fits : env.fits (path ++ slash :: name) := fits
  obtain ⟨names, -, components, leads⟩ := deletable.names_entry (disk.legal name loc exists_)
  have resolved : resolve env after (path ++ slash :: name) = some (name :: loc) := by
    rw [resolve, if_pos fits, components]
    exact FileTree.walk_names_iff.mpr ⟨leads, deletable.searchable_entry name, .inr (same ▸ exists_)⟩
  have may : after.kind (name :: loc) = some .file ∧ env.mayDelete (name :: loc) = true :=
    ⟨same.trans file, mayDelete⟩
  refine ⟨after.without _ (after.file_ne_root may.1) (after.nothing_below_file may.1), ?_, fun l => rfl⟩
  simp only [unlink, resolved]
  rw [dif_pos may]

theorem endsInName (deletable : Deletable env disk path loc) : endsInName path = true := by
  obtain ⟨names, some_, components, -⟩ := deletable.names
  have last := congrArg List.getLast? components
  rw [List.getLast?_map, List.getLast?_map, List.getLast?_eq_some_getLast some_] at last
  obtain ⟨field, is, named⟩ := Option.map_eq_some_iff.mp last
  rw [File.endsInName, is]
  have one : field ≠ [46] := by
    rintro rfl
    cases named
  have two : field ≠ [46, 46] := by
    rintro rfl
    cases named
  simp [one, two]

end Deletable

def Gone (gone : List Name → Prop) (disk after : Disk) : Prop :=
  ∀ loc, (gone loc → after.kind loc = none) ∧ (¬ gone loc → after.kind loc = disk.kind loc)

theorem deleteEntries_all {recursively : Name → Disk → Option Bool × Disk} {names : List Name}
    {current : Disk}
    (deletable : Deletable env disk path loc) (there : current.kind loc = some .directory)
    (exist : ∀ name ∈ names, disk.kind (name :: loc) ≠ none) (nodup : names.Nodup)
    (same : ∀ name ∈ names, ∀ inner,
      current.kind (inner ++ name :: loc) = disk.kind (inner ++ name :: loc))
    (inner : ∀ name ∈ names, ∀ current : Disk,
      (∀ inner, current.kind (inner ++ name :: loc) = disk.kind (inner ++ name :: loc)) →
      disk.kind (name :: loc) = some .directory →
      ∃ after, recursively (path ++ slash :: name) current = (some true, after) ∧
        Gone (name :: loc <:+ ·) current after) :
    ∃ after, deleteEntries env recursively path
        (names.map fun name => (name, decide (disk.kind (name :: loc) = some .directory))) current =
        (some true, after) ∧ Gone (fun l => ∃ name ∈ names, name :: loc <:+ l) current after := by
  induction names generalizing current with
  | nil => exact ⟨current, rfl, fun l => ⟨fun gone => by simp at gone, fun _ => rfl⟩⟩
  | cons name rest ih =>
      have first : ∃ after, Gone (name :: loc <:+ ·) current after ∧
          deleteEntries env recursively path ((name :: rest).map fun name =>
            (name, decide (disk.kind (name :: loc) = some .directory))) current =
          deleteEntries env recursively path (rest.map fun name =>
            (name, decide (disk.kind (name :: loc) = some .directory))) after := by
        cases kind : disk.kind (name :: loc) with
        | none => exact absurd kind (exist name List.mem_cons_self)
        | some kind_ =>
            cases kind_ with
            | directory =>
                obtain ⟨after, returned, gone⟩ :=
                  inner name List.mem_cons_self current (same name List.mem_cons_self) kind
                refine ⟨after, gone, ?_⟩
                rw [List.map_cons, deleteEntries]
                simp only [kind, decide_true, if_true, returned]
            | file =>
                have now : current.kind (name :: loc) = some .file :=
                  (same name List.mem_cons_self []).trans kind
                obtain ⟨after, unlinked, gone⟩ :=
                  deletable.unlink_entry (same name List.mem_cons_self []) kind
                refine ⟨after, fun l => ⟨fun below => ?_, fun elsewhere => ?_⟩, ?_⟩
                · rw [gone]
                  split
                  · rfl
                  · rename_i other
                    by_contra exists_
                    cases now.symm.trans (current.above exists_ below (Ne.symm other))
                · rw [gone, if_neg]
                  rintro rfl
                  exact elsewhere (List.suffix_refl _)
                · rw [List.map_cons, deleteEntries]
                  simp only [kind, unlinked]
                  rfl
      obtain ⟨middle, gone, continues⟩ := first
      have apart {other : Name} (different : other ≠ name) (below : List Name) :
          ¬ name :: loc <:+ below ++ other :: loc := by
        intro suffix
        have shared := List.suffix_of_suffix_length_le suffix (List.suffix_append below _) le_rfl
        exact different (List.cons.inj (shared.eq_of_length rfl)).1.symm
      have untouched {other : Name} (inside : other ∈ rest) (below : List Name) :
          middle.kind (below ++ other :: loc) = current.kind (below ++ other :: loc) := by
        refine (gone _).2 (apart ?_ below)
        rintro rfl
        exact (List.nodup_cons.mp nodup).1 inside
      have above : middle.kind loc = some .directory := by
        rw [← there]
        refine (gone loc).2 fun suffix => ?_
        have length := suffix.length_le
        rw [List.length_cons] at length
        omega
      obtain ⟨last, returned, gone'⟩ := ih above
        (fun other inside => exist other (List.mem_cons_of_mem _ inside)) (List.nodup_cons.mp nodup).2
        (fun other inside below =>
          (untouched inside below).trans (same other (List.mem_cons_of_mem _ inside) below))
        (fun other inside => inner other (List.mem_cons_of_mem _ inside))
      refine ⟨last, continues.trans returned, fun l => ⟨?_, fun kept => ?_⟩⟩
      · rintro ⟨other, inside, below⟩
        by_cases later : ∃ other ∈ rest, other :: loc <:+ l
        · exact (gone' l).1 later
        · rw [(gone' l).2 later]
          rcases List.mem_cons.mp inside with rfl | inside
          · exact (gone l).1 below
          · exact absurd ⟨other, inside, below⟩ later
      · have kept' : ¬ ∃ other ∈ rest, other :: loc <:+ l := by
          rintro ⟨other, inside, below⟩
          exact kept ⟨other, List.mem_cons_of_mem _ inside, below⟩
        rw [(gone' l).2 kept']
        exact (gone l).2 fun below => kept ⟨name, List.mem_cons_self, below⟩

theorem rmdir_all (deletable : Deletable env disk path loc) (there : after.kind loc = some .directory)
    (empty : ∀ name, after.kind (name :: loc) = none) :
    ∃ last, rmdir env after path = some last ∧
      ∀ l, last.kind l = if l = loc then none else after.kind l := by
  have nothing : after.entries loc = [] := by
    rw [List.eq_nil_iff_forall_not_mem]
    exact fun name inside => (after.listed name loc).mp inside (empty name)
  have exists_ : after.kind loc ≠ none := by
    rw [there]
    exact Option.some_ne_none _
  have mayDelete : env.mayDelete loc = true := (deletable.deletable [] deletable.isThere).2
  have may : after.kind loc = some .directory ∧ loc ≠ [] ∧ after.entries loc = [] ∧
      env.mayDelete loc = true ∧ endsInName path = true :=
    ⟨there, deletable.proper, nothing, mayDelete, deletable.endsInName⟩
  refine ⟨after.without loc may.2.1 (after.nothing_below_empty may.2.2.1), ?_, fun l => rfl⟩
  simp only [rmdir, deletable.resolves exists_]
  rw [dif_pos may]

theorem deleteRecursivelyImpl_all (depth : Nat) (deletable : Deletable env disk path loc)
    (shallow : ∀ inner, depth ≤ inner.length → disk.kind (inner ++ loc) = none) :
    ∃ after, DeleteRecursivelyImpl env depth path disk = (some true, after) ∧
      Gone (loc <:+ ·) disk after := by
  induction depth generalizing path loc disk with
  | zero => cases deletable.directory.symm.trans (shallow [] (Nat.zero_le _))
  | succ depth ih =>
      obtain ⟨path16, converted, read⟩ := deletable.read
      have inner (name : Name) (inside : name ∈ disk.entries loc) (current : Disk)
          (same : ∀ inner, current.kind (inner ++ name :: loc) = disk.kind (inner ++ name :: loc))
          (directory : disk.kind (name :: loc) = some .directory) :
          ∃ after, DeleteRecursivelyImpl env depth (path ++ slash :: name) current = (some true, after) ∧
            Gone (name :: loc <:+ ·) current after := by
        refine ih (deletable.entry same directory) fun inner deep => ?_
        rw [same, List.append_cons]
        refine shallow _ ?_
        rw [List.length_append, List.length_singleton]
        omega
      obtain ⟨emptied, returned, gone⟩ := deleteEntries_all deletable deletable.directory
        (fun name inside => (disk.listed name loc).mp inside) (disk.nodup loc) (fun _ _ _ => rfl) inner
      have apart (l : List Name) (below : ∃ name ∈ disk.entries loc, name :: loc <:+ l) : l ≠ loc := by
        rintro rfl
        obtain ⟨name, -, suffix⟩ := below
        have length := suffix.length_le
        rw [List.length_cons] at length
        omega
      have there : emptied.kind loc = some .directory := by
        rw [(gone loc).2 fun below => apart loc below rfl]
        exact deletable.directory
      have empty (name : Name) : emptied.kind (name :: loc) = none := by
        by_cases inside : name ∈ disk.entries loc
        · exact (gone _).1 ⟨name, inside, List.suffix_refl _⟩
        · rw [(gone _).2 ?_]
          · rw [disk.listed, not_not] at inside
            exact inside
          · rintro ⟨other, listed, suffix⟩
            cases suffix.eq_of_length rfl
            exact inside listed
      obtain ⟨last, removed, only⟩ := rmdir_all deletable there empty
      refine ⟨last, ?_, fun l => ⟨fun below => ?_, fun outside => ?_⟩⟩
      · simp only [DeleteRecursivelyImpl, converted, read, returned, removed]
      · have gone : last.kind loc = none := by rw [only, if_pos rfl]
        exact last.none_below gone below
      · have other : l ≠ loc := by
          rintro rfl
          exact outside (List.suffix_refl _)
        rw [only, if_neg other]
        refine (gone l).2 ?_
        rintro ⟨name, -, suffix⟩
        exact outside ((List.suffix_cons name loc).trans suffix)

theorem length_pathTo (path : Name) (inner : List Name) : inner.length ≤ (pathTo path inner).length := by
  induction inner with
  | nil => exact Nat.zero_le _
  | cons name inner ih =>
      rw [pathTo, List.length_append, List.length_cons, List.length_cons]
      omega

theorem Deletable.shallow (deletable : Deletable env disk path loc) {inner : List Name}
    (deep : env.pathMax ≤ inner.length) : disk.kind (inner ++ loc) = none := by
  by_contra exists_
  have fits := (deletable.deletable inner exists_).1.2
  have long := length_pathTo path inner
  omega

end All

section Slash

theorem fields_withoutTrailingSlash (path : Name) :
    fields slash (withoutTrailingSlash path) = fields slash path := by
  rw [withoutTrailingSlash]
  split
  · rename_i last
    conv_rhs => rw [← List.dropLast_append_getLast? slash last, fields_trailing]
  · rfl

theorem start_withoutTrailingSlash (some_ : withoutTrailingSlash path ≠ []) :
    env.start (withoutTrailingSlash path) = env.start path := by
  rw [withoutTrailingSlash] at some_ ⊢
  split
  · rename_i last
    rw [if_pos last] at some_
    obtain ⟨c, rest, same⟩ := List.exists_cons_of_ne_nil some_
    rw [← List.dropLast_append_getLast? slash last, List.dropLast_concat, same]
    rfl
  · rfl

theorem target_withoutTrailingSlash (some_ : withoutTrailingSlash path ≠ []) :
    target env (withoutTrailingSlash path) = target env path := by
  rw [target, fields_withoutTrailingSlash, start_withoutTrailingSlash some_, target]

theorem deleteRecursivelyImpl_nil (depth : Nat) :
    (DeleteRecursivelyImpl env depth [] disk).1 ≠ some true ∧
      (DeleteRecursivelyImpl env depth [] disk).2 = disk := by
  cases depth with
  | zero => exact ⟨nofun, rfl⟩
  | succ depth =>
      have unreadable : ReadDir env disk [] = none := by
        cases read : ReadDir env disk [] with
        | none => rfl
        | some contents =>
            obtain ⟨-, path, converted, some_⟩ := ReadDir_legal read
            cases converted
            exact absurd rfl some_
      have empty : utf8ToString16 [] = some [] := rfl
      simp only [DeleteRecursivelyImpl, empty, unreadable]
      exact ⟨nofun, trivial⟩

theorem Deletable.directoryExists {fullDirpath : String16}
    (converted : string16ToUTF8 fullDirpath = some path)
    (deletable : Deletable env disk (withoutTrailingSlash path) loc) (fits : env.fits path) :
    DirectoryExists env.toEnvironment disk.toFileTree fullDirpath = true := by
  have resolved := deletable.resolves deletable.isThere
  have some_ := resolve_ne_nil resolved
  rw [resolve] at resolved
  split at resolved
  · rw [fields_withoutTrailingSlash, start_withoutTrailingSlash some_] at resolved
    simp only [DirectoryExists, converted]
    rw [stat, if_pos fits, resolved, Option.bind_some, deletable.directory]
    rfl
  · cases resolved

end Slash

/-- It always returns. Nothing else goes, all of it does when it succeeds, and it does where it can. -/
theorem deleteRecursively_deletes {fullDirpath : String16}
    (converted : string16ToUTF8 fullDirpath = some path) {depth : Nat} (enough : env.pathMax < depth) :
    ∃ success after, DeleteRecursively env depth disk fullDirpath = (some success, after) ∧
      Within (target env path) disk after ∧
      (success = true → ∀ loc, target env path <:+ loc → after.kind loc = none) ∧
      (Deletable env disk (withoutTrailingSlash path) (target env path) → env.fits path →
        success = true) := by
  have called : DeleteRecursively env depth disk fullDirpath =
      if DirectoryExists env.toEnvironment disk.toFileTree fullDirpath = true then
        DeleteRecursivelyImpl env depth (withoutTrailingSlash path) disk
      else (some false, disk) := by
    simp only [DeleteRecursively, converted]
  rw [called]
  split
  · obtain ⟨depth, rfl⟩ : ∃ n, depth = n + 1 := ⟨depth - 1, by omega⟩
    have returns := @deleteRecursivelyImpl_returns env depth (withoutTrailingSlash path) disk (by omega)
    obtain ⟨success, returned⟩ := Option.ne_none_iff_exists'.mp returns
    have account : Within (target env path) disk
          (DeleteRecursivelyImpl env (depth + 1) (withoutTrailingSlash path) disk).2 ∧
        ((DeleteRecursivelyImpl env (depth + 1) (withoutTrailingSlash path) disk).1 = some true →
          (DeleteRecursivelyImpl env (depth + 1) (withoutTrailingSlash path) disk).2.kind (target env path) =
            none) := by
      by_cases root : withoutTrailingSlash path = []
      · obtain ⟨failed, same⟩ := @deleteRecursivelyImpl_nil env disk (depth + 1)
        rw [root, same]
        exact ⟨.refl _ _, fun success => absurd success failed⟩
      · rw [← target_withoutTrailingSlash root]
        exact deleteRecursivelyImpl_within (depth + 1) (withoutTrailingSlash path) disk
    refine ⟨success, _, Prod.ext returned rfl, account.1, ?_, fun deletable _ => ?_⟩
    · rintro rfl loc below
      exact FileTree.none_below _ (account.2 returned) below
    · obtain ⟨after, all, -⟩ := deleteRecursivelyImpl_all (depth + 1) deletable fun inner deep =>
        deletable.shallow (by omega)
      rw [all] at returned
      exact (Option.some.inj returned).symm
  · rename_i missing
    exact ⟨false, disk, rfl, .refl _ _, nofun, fun deletable fits =>
      absurd (deletable.directoryExists converted fits) missing⟩

section OneFile

def oneFile : Disk where
  kind loc :=
    if loc = [] ∨ loc = [[97]] then some .directory else if loc = [[98], [97]] then some .file else none
  root := rfl
  parent name dir exists_ := by
    by_cases first : dir = [] ∨ dir = [[97]]
    · exact if_pos first
    · obtain ⟨root, other⟩ := not_or.mp first
      simp [root, other] at exists_
  entries dir := if dir = [] then [[97]] else if dir = [[97]] then [[98]] else []
  listed name dir := by
    by_cases root : dir = []
    · simp [root]
    · by_cases inside : dir = [[97]] <;> simp [root, inside]
  nodup dir := by
    split
    · exact List.nodup_singleton _
    · split
      · exact List.nodup_singleton _
      · exact List.nodup_nil
  legal name dir exists_ := by
    by_cases root : dir = []
    · have only : name = [97] := by simpa [root] using exists_
      rw [only]
      decide
    · by_cases inside : dir = [[97]]
      · have only : name = [98] := by simpa [inside] using exists_
        rw [only]
        decide
      · simp [root, inside] at exists_

def allowed : DeleteEnvironment where
  cwd := []
  pathMax := 4096
  maySearch _ := true
  mayCreate _ := true
  asserts := true
  mayRead _ := true
  mayDelete _ := true
  typed := true

theorem oneFile_deletable : Deletable allowed oneFile [47, 97] [[97]] where
  names := ⟨[[97]], by decide,
    congrArg (List.map component) (show fields slash [47, 97] = [[97]] by decide +kernel), rfl⟩
  searchable _ _ _ _ := rfl
  directory := rfl
  deletable inner exists_ := by
    refine ⟨?_, rfl⟩
    have few : inner = [] ∨ inner = [[98]] := by
      rcases inner with _ | ⟨name, _ | ⟨_, _⟩⟩ <;> simp [oneFile] at exists_ ⊢
      exact exists_
    rcases few with rfl | rfl
    · exact ⟨by decide, by decide⟩
    · exact ⟨by decide, by decide⟩
  readable inner directory := by
    have only : inner = [] := by
      rcases inner with _ | ⟨name, _ | ⟨_, _⟩⟩ <;> simp [oneFile] at directory ⊢
    rw [only]
    exact ⟨⟨['/', 'a'], by decide +kernel, by decide +kernel⟩, rfl, rfl⟩
  typed _ _ _ := rfl

theorem deleteRecursively_deletes_oneFile :
    ∃ after, DeleteRecursively allowed 4097 oneFile [47, 97, 47] = (some true, after) ∧
      Within [[97]] oneFile after ∧ ∀ loc, [[97]] <:+ loc → after.kind loc = none := by
  have converted : string16ToUTF8 [47, 97, 47] = some [47, 97, 47] := by decide +kernel
  have leads : target allowed [47, 97, 47] = [[97]] := by decide +kernel
  obtain ⟨success, after, returned, within, gone, can⟩ :=
    @deleteRecursively_deletes allowed oneFile _ _ converted 4097 (by decide)
  rw [leads] at within gone can
  cases can oneFile_deletable ⟨by decide, by decide⟩
  exact ⟨after, returned, within, gone rfl⟩

end OneFile

end ThreadIpc.File

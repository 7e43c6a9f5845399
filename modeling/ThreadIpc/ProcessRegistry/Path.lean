import ThreadIpc.ProcessRegistry.Layout

namespace ThreadIpc.ProcessRegistry

def Repairable (target : Ids) (processes : List IpcProcessId) : Prop :=
  processes = slots target.list ∨ ∃ last ∈ target.list,
    target.list.length < kMaxProcesses ∧ processes = slots (target.list ++ [last])

inductive Path (source target : Ids) : List IpcProcessId → List Write → Prop
  | done : Path source target (slots target.list) []
  | bump {processes writes} : Path source target processes writes →
      Path source target processes (.bumpRevision :: writes)
  | store {processes i id writes}
      (between : processes = slots source.list ∨ Repairable target processes) :
      Path source target (processes.set i id) writes →
      Path source target processes (.setProcess i id :: writes)

theorem Path.between {source target : Ids} {processes : List IpcProcessId} {writes : List Write}
    (path : Path source target processes writes) :
    processes = slots source.list ∨ Repairable target processes := by
  induction path with
  | done => exact .inr (.inl rfl)
  | bump _ ih => exact ih
  | store between _ _ => exact between

theorem Path.finished {source target : Ids} {processes : List IpcProcessId}
    (path : Path source target processes []) : processes = slots target.list := by
  cases path
  rfl

theorem Path.write {source target : Ids} {registry : Registry} {write : Write}
    {writes : List Write} (path : Path source target registry.processes (write :: writes)) :
    Path source target (registry.write write).processes writes := by
  obtain ⟨revision, processes, size⟩ := registry
  simp only at path
  cases path with
  | bump rest => exact rest
  | store _ rest => exact rest

theorem Path.repairable {ids : Ids} {processes : List IpcProcessId} {writes : List Write}
    (path : Path ids ids processes writes) : Repairable ids processes := by
  rcases path.between with same | repairable
  · exact .inl same
  · exact repairable

theorem split_at {ids : List IpcProcessId} {i : Nat} (inside : i < ids.length) :
    ∃ front back, ids = front ++ ids[i] :: back ∧ front.length = i := by
  refine ⟨ids.take i, ids.drop (i + 1), ?_, ?_⟩
  · rw [← List.drop_eq_getElem_cons inside, List.take_append_drop]
  · simp only [List.length_take]
    omega

theorem found_at {ids : List IpcProcessId} {id : IpcProcessId} {i : Nat}
    (found : ids.findIdx? (· == id) = some i) : ∃ inside : i < ids.length, ids[i] = id := by
  obtain ⟨inside, same, _⟩ := List.findIdx?_eq_some_iff_getElem.mp found
  exact ⟨inside, beq_iff_eq.mp same⟩

section Paths
variable {registry : Registry} {source : Ids}

theorem repair_path {target : Ids} (repairable : Repairable target registry.processes) :
    Path target target registry.processes registry.repairWrites := by
  rcases repairable with layout | ⟨last, member, room, layout⟩
  · rw [repairWrites_of_slots layout target.valid target.distinct, layout]
    exact .done
  · rw [repairWrites_of_duplicate layout target.valid member]
    apply Path.bump
    apply Path.store (.inr (.inr ⟨last, member, room, layout⟩))
    rw [layout, slots_set_last _ _ room]
    exact .done

theorem Ids.erased {id : IpcProcessId} {list : List IpcProcessId}
    (parts : source.list.Perm (id :: list)) :
    ∃ target : Ids, target.list = list ∧ target.list.toFinset = source.list.toFinset.erase id := by
  have distinct := List.nodup_cons.mp (parts.nodup_iff.mp source.distinct)
  have valid : kInvalidProcessId ∉ list := by
    intro member
    exact source.valid (parts.mem_iff.mpr (List.mem_cons_of_mem _ member))
  have fits : list.length + 1 ≤ kMaxProcesses := by
    rw [← List.length_cons (a := id), ← parts.length_eq]
    exact source.fits
  refine ⟨⟨list, valid, distinct.2, Nat.le_of_succ_le fits⟩, rfl, ?_⟩
  rw [List.toFinset_eq_of_perm _ _ parts, List.toFinset_cons, Finset.erase_insert]
  rw [List.mem_toFinset]
  exact distinct.1

theorem Ids.inserted {id : ValidId} {list : List IpcProcessId}
    (parts : list.Perm (id.val :: source.list)) (absent : id.val ∉ source.list)
    (room : source.list.length < kMaxProcesses) :
    ∃ target : Ids, target.list = list ∧
      target.list.toFinset = insert id.val source.list.toFinset := by
  have valid : kInvalidProcessId ∉ list := by
    rw [parts.mem_iff, List.mem_cons, not_or]
    exact ⟨id.property.symm, source.valid⟩
  have distinct : list.Nodup := parts.nodup_iff.mpr (List.nodup_cons.mpr ⟨absent, source.distinct⟩)
  have fits : list.length ≤ kMaxProcesses := by
    rw [parts.length_eq]
    exact room
  refine ⟨⟨list, valid, distinct, fits⟩, rfl, ?_⟩
  rw [List.toFinset_eq_of_perm _ _ parts, List.toFinset_cons]

theorem add_path (layout : registry.processes = slots source.list) {id : ValidId}
    (absent : id.val ∉ source.list) (room : source.list.length < kMaxProcesses) :
    ∃ target : Ids,
      Path source target registry.processes (Registry.addWrites source.list.length id) ∧
      target.list.toFinset = insert id.val source.list.toFinset := by
  obtain ⟨target, list, members⟩ := Ids.inserted (List.perm_append_singleton _ _) absent room
  refine ⟨target, .bump (.store (.inl layout) ?_), members⟩
  rw [layout, slots_set_empty _ _ room, ← list]
  exact .done

theorem replace_path (layout : registry.processes = slots source.list) {id : ValidId}
    (absent : id.val ∉ source.list) {i : Nat} (inside : i < source.list.length) :
    ∃ target : Ids, Path source target registry.processes (Registry.addWrites i id) ∧
      target.list.toFinset = insert id.val (source.list.toFinset.erase source.list[i]) := by
  obtain ⟨front, back, parts, count⟩ := split_at inside
  generalize source.list[i] = old at parts
  have moved : source.list.Perm (old :: (front ++ back)) := by
    rw [parts]
    exact List.perm_middle
  obtain ⟨others, list, erased⟩ := Ids.erased moved
  rw [moved.mem_iff, List.mem_cons, not_or, ← list] at absent
  have room : others.list.length < kMaxProcesses := by
    have fits := source.fits
    rw [moved.length_eq, ← list] at fits
    exact fits
  have put : (front ++ id.val :: back).Perm (id.val :: others.list) := by
    rw [list]
    exact List.perm_middle
  obtain ⟨target, replaced, inserted⟩ := Ids.inserted put absent.2 room
  refine ⟨target, .bump (.store (.inl layout) ?_), inserted.trans (by rw [erased])⟩
  rw [layout, slots_set _ _ inside, parts, List.set_append_right _ _ count.le, count, Nat.sub_self,
    List.set_cons_zero, ← replaced]
  exact .done

theorem remove_path_last (layout : registry.processes = slots source.list) {id : IpcProcessId}
    {front : List IpcProcessId} (parts : source.list = front ++ [id]) :
    ∃ target : Ids, Path source target registry.processes (registry.removeWrites front.length) ∧
      target.list.toFinset = source.list.toFinset.erase id := by
  have length : source.list.length = front.length + 1 := by rw [parts, List.length_append]; rfl
  have last : registry.lastValidIndex front.length = front.length := by
    rw [lastValidIndex_of_slots layout source.valid (by omega), length, Nat.add_sub_cancel]
  have moved : source.list.Perm (id :: front) := by
    rw [parts]
    exact List.perm_append_singleton _ _
  obtain ⟨target, list, erased⟩ := Ids.erased moved
  have room : front.length < kMaxProcesses := by
    have fits := source.fits
    omega
  refine ⟨target, ?_, erased⟩
  rw [Registry.removeWrites, last, if_neg (not_not.mpr rfl)]
  apply Path.bump
  apply Path.store (.inl layout)
  rw [layout, parts, slots_set_last _ _ room, ← list]
  exact .done

theorem remove_path_inner (layout : registry.processes = slots source.list) {id last : IpcProcessId}
    {front rest : List IpcProcessId} (parts : source.list = front ++ id :: (rest ++ [last])) :
    ∃ target : Ids, Path source target registry.processes (registry.removeWrites front.length) ∧
      target.list.toFinset = source.list.toFinset.erase id := by
  have length : source.list.length = (front ++ last :: rest).length + 1 := by
    rw [parts]
    simp
    omega
  have inside : front.length < source.list.length := by
    rw [length, List.length_append]
    omega
  have lastValid : registry.lastValidIndex front.length = (front ++ last :: rest).length := by
    rw [lastValidIndex_of_slots layout source.valid inside, length, Nat.add_sub_cancel]
  have last_at : registry.processAt (front ++ last :: rest).length = last := by
    rw [processAt_of_slots layout (by omega)]
    simp [parts]
  have set_last : source.list.set front.length last = (front ++ last :: rest) ++ [last] := by
    rw [parts, List.set_append_right _ _ le_rfl]
    simp
  have moved : source.list.Perm (id :: (front ++ last :: rest)) := by
    rw [parts]
    calc
      List.Perm _ (id :: (front ++ (rest ++ [last]))) := List.perm_middle
      List.Perm _ (id :: (front ++ last :: rest)) :=
        ((List.perm_append_singleton _ _).append_left front).cons id
  obtain ⟨target, list, erased⟩ := Ids.erased moved
  have room : (front ++ last :: rest).length < kMaxProcesses := by
    have fits := source.fits
    omega
  refine ⟨target, ?_, erased⟩
  have elsewhere : (front ++ last :: rest).length ≠ front.length := by simp
  rw [Registry.removeWrites, lastValid, if_pos elsewhere, last_at]
  apply Path.bump
  apply Path.store (.inl layout)
  rw [layout, slots_set _ _ inside, set_last]
  rw [← list] at room ⊢
  apply Path.store (.inr (.inr ⟨last, by simp [list], room, rfl⟩))
  rw [slots_set_last _ _ room]
  exact .done

theorem remove_path (layout : registry.processes = slots source.list) {id : IpcProcessId} {i : Nat}
    (found : source.list.findIdx? (· == id) = some i) :
    ∃ target : Ids, Path source target registry.processes (registry.removeWrites i) ∧
      target.list.toFinset = source.list.toFinset.erase id := by
  obtain ⟨inside, here⟩ := found_at found
  obtain ⟨front, back, parts, count⟩ := split_at inside
  rw [here] at parts
  rcases List.eq_nil_or_concat back with rfl | ⟨rest, last, rfl⟩
  · rw [← count]
    exact remove_path_last layout parts
  · rw [List.concat_eq_append] at parts
    rw [← count]
    exact remove_path_inner layout parts

end Paths

end ThreadIpc.ProcessRegistry

import GCore.Mm.Fault

namespace GCore.Mm

open Option

/-!
# What a reclaim pass can do

A pass empties the queue of every area that it cleans, and each entry of a queue makes
it put at most one page aside.  Whatever the entries are, stale ones included, the
whole pass is therefore a sequence of steps that each change one area: either its queue
only, or the record and the entry of one resident page of an anonymous area.
-/

/-- Where a resident page may be moved to, with the content to be put aside. -/
inductive Evicted : Frame -> Frame -> Store -> Prop
  | zram (ppn id : Nat) : Evicted (.inMemory ppn) (.compressed id) (.zram ppn id)
  | swap (ppn id : Nat) : Evicted (.inMemory ppn) (.swappedOut id) (.swap ppn id)

namespace Frame

variable {frame moved : Frame} {store : Store} {env : ReclaimEnv}

theorem forceSwapOut_evicted (done : frame.forceSwapOut env = .ok (moved, store)) : Evicted frame moved store := by
  cases frame with
  | inMemory ppn =>
    cases given : env.swap with
    | none => simp [forceSwapOut, given] at done
    | some id =>
      simp only [forceSwapOut, given] at done
      cases done
      exact .swap ppn id
  | compressed id | swappedOut id | unallocated => cases done

theorem swapOut_evicted (done : frame.swapOut env = .ok (moved, store)) : Evicted frame moved store := by
  cases frame with
  | inMemory ppn =>
    simp only [swapOut] at done
    split at done
    · exact forceSwapOut_evicted done
    · cases done
  | compressed id | swappedOut id | unallocated => cases done

theorem zip_evicted (done : frame.zip env = .ok (moved, store)) : Evicted frame moved store := by
  cases frame with
  | inMemory ppn =>
    simp only [zip] at done
    split at done
    · cases given : env.zram with
      | none => simp [given] at done
      | some id =>
        simp only [given] at done
        cases done
        exact .zram ppn id
    · cases done
  | compressed id | swappedOut id | unallocated => cases done

theorem forceVictim_evicted (chosen : frame.forceVictim env = some (moved, store)) : Evicted frame moved store := by
  unfold forceVictim at chosen
  cases done : frame.forceSwapOut env with
  | error error => simp [done, Except.toOption] at chosen
  | ok pair =>
    simp only [done, Except.toOption, some.injEq] at chosen
    exact forceSwapOut_evicted (chosen ▸ done)

theorem oomVictim_evicted (chosen : frame.oomVictim env = some (moved, store)) : Evicted frame moved store := by
  unfold oomVictim at chosen
  split at chosen
  · next done =>
    cases chosen
    exact zip_evicted done
  · cases done : frame.swapOut env with
    | error error => simp [done, Except.toOption] at chosen
    | ok pair =>
      simp only [done, Except.toOption, some.injEq] at chosen
      exact swapOut_evicted (chosen ▸ done)
  · cases chosen

end Frame

open MapArea

/-- One step of a pass. -/
inductive CleanStep : MemorySet -> List Store -> MemorySet -> Prop
  | idle {table : PageTable} {front back : List MapArea} {area after : MapArea} (alike : Alike area after) :
      CleanStep ⟨table, front ++ area :: back⟩ [] ⟨table, front ++ after :: back⟩
  | evict {table : PageTable} {front back : List MapArea} {area after : MapArea} {vpn : Nat}
      {frame moved : Frame} {store : Store} (anonymous : area.mapFile = none)
      (record : area.frame? vpn = some frame) (evicted : Evicted frame moved store)
      (records : Records area vpn moved after) :
      CleanStep ⟨table, front ++ area :: back⟩ [store] ⟨table.unmap vpn, front ++ after :: back⟩

/-- A sequence of such steps, with everything that was put aside, in order. -/
inductive Cleaned : MemorySet -> List Store -> MemorySet -> Prop
  | refl (set : MemorySet) : Cleaned set [] set
  | step {set middle after : MemorySet} {stores rest : List Store} (first : CleanStep set stores middle)
      (later : Cleaned middle rest after) : Cleaned set (stores ++ rest) after

theorem Cleaned.trans {set middle after : MemorySet} {stores rest : List Store}
    (earlier : Cleaned set stores middle) (later : Cleaned middle rest after) :
    Cleaned set (stores ++ rest) after := by
  induction earlier with
  | refl _ => exact later
  | step first _ ih =>
    rw [List.append_assoc]
    exact .step first (ih later)

namespace MapArea

variable {victim : Frame -> ReclaimEnv -> Option (Frame × Store)}

section Round

variable (victim) (area : MapArea) (table : PageTable) (index : Nat) (env : ReclaimEnv)

/-- A round of the loop leaves everything as it is, or it puts a page aside. -/
theorem reclaimOne_cases : reclaimOne victim area table index env = (area, table, []) \/
    ∃ frame moved store after, area.frame? (area.start + index) = some frame /\ victim frame env = some (moved, store) /\
      Records area (area.start + index) moved after /\
      reclaimOne victim area table index env = (after, table.unmap (area.start + index), [store]) := by
  unfold reclaimOne
  cases here : area.inner.frames[index]? with
  | none => exact .inl rfl
  | some frame =>
    cases chosen : victim frame env with
    | none => exact .inl (by simp only [chosen])
    | some pair =>
      rcases pair with ⟨moved, store⟩
      have record : area.frame? (area.start + index) = some frame := by
        refine LinearMap.frame?_eq_some_iff.mpr ⟨Nat.le_add_right _ _, ?_⟩
        rw [show area.start + index - area.inner.start = index from Nat.add_sub_cancel_left _ _]
        exact here
      have records := Records.set area (holds_of_frame? record) moved area.inner.active
      rw [Nat.add_sub_cancel_left] at records
      simp only [chosen]
      refine .inr ⟨frame, moved, store, _, record, chosen, ?_, rfl⟩
      cases store with
      | zram ppn id | swap ppn id => exact records _ _

theorem reclaimOne_shape : (reclaimOne victim area table index env).1.start = area.start /\
    (reclaimOne victim area table index env).1.stop = area.stop /\
    (reclaimOne victim area table index env).1.mapFile = area.mapFile := by
  rcases reclaimOne_cases victim area table index env with same | ⟨_, _, _, _, _, _, records, done⟩
  · rw [same]
    exact ⟨rfl, rfl, rfl⟩
  · rw [done]
    exact ⟨records.start_eq, records.stop_eq, records.file_eq⟩

end Round

theorem reclaimOne_step
    (evicts : ∀ frame env moved store, victim frame env = some (moved, store) -> Evicted frame moved store)
    (area : MapArea) (table : PageTable) (index : Nat) (env : ReclaimEnv) (anonymous : area.mapFile = none)
    (front back : List MapArea) :
    CleanStep ⟨table, front ++ area :: back⟩ (reclaimOne victim area table index env).2.2
      ⟨(reclaimOne victim area table index env).2.1, front ++ (reclaimOne victim area table index env).1 :: back⟩ := by
  rcases reclaimOne_cases victim area table index env with same | ⟨_, _, _, _, record, chosen, records, done⟩
  · rw [same]
    exact .idle (Alike.refl area)
  · rw [done]
    exact .evict anonymous record (evicts _ _ _ _ chosen) records

/-- The loop is a sequence of steps, by induction on the queue. -/
theorem reclaimLoop_cleaned
    (evicts : ∀ frame env moved store, victim frame env = some (moved, store) -> Evicted frame moved store)
    (queue : List Nat) (envs : Nat -> ReclaimEnv) (area : MapArea) (table : PageTable)
    (anonymous : area.mapFile = none) (front back : List MapArea) :
    Cleaned ⟨table, front ++ area :: back⟩ (reclaimLoop victim queue envs area table).2.2
      ⟨(reclaimLoop victim queue envs area table).2.1,
        front ++ (reclaimLoop victim queue envs area table).1 :: back⟩ := by
  induction queue generalizing envs area table with
  | nil => exact .refl _
  | cons index queue ih =>
    have popped : Alike area { area with inner := { area.inner with active := queue } } :=
      ⟨rfl, rfl, rfl, rfl, rfl, fun _ => rfl⟩
    have one := reclaimOne_step evicts { area with inner := { area.inner with active := queue } } table index
      (envs 0) anonymous front back
    have others := ih (fun round => envs (round + 1))
      (reclaimOne victim { area with inner := { area.inner with active := queue } } table index (envs 0)).1
      (reclaimOne victim { area with inner := { area.inner with active := queue } } table index (envs 0)).2.1
      ((reclaimOne_shape victim _ table index (envs 0)).2.2.trans anonymous)
    have whole := Cleaned.step (.idle popped) (.step one others)
    exact whole

end MapArea

namespace MemorySet

/-- A pass over the areas is a sequence of steps if it is one on each area. -/
theorem cleanAreas_cleaned
    {pass : MapArea -> PageTable -> (Nat -> ReclaimEnv) -> MapArea × PageTable × List Store × Nat}
    (cleans : ∀ area table envs (front back : List MapArea),
      Cleaned ⟨table, front ++ area :: back⟩ (pass area table envs).2.2.1
        ⟨(pass area table envs).2.1, front ++ (pass area table envs).1 :: back⟩)
    (areas : List MapArea) (envs : Nat -> Nat -> ReclaimEnv) (table : PageTable) (front : List MapArea) :
    Cleaned ⟨table, front ++ areas⟩ (cleanAreas pass areas envs table).2.2.1
      ⟨(cleanAreas pass areas envs table).2.1, front ++ (cleanAreas pass areas envs table).1⟩ := by
  induction areas generalizing envs table front with
  | nil => exact .refl _
  | cons area rest ih =>
    have first := cleans area table (envs 0) front rest
    have later := ih (fun round => envs (round + 1)) (pass area table (envs 0)).2.1
      (front ++ [(pass area table (envs 0)).1])
    simp only [List.append_assoc, List.singleton_append] at later
    exact first.trans later

theorem shallowPass_cleaned (area : MapArea) (table : PageTable) (envs : Nat -> ReclaimEnv)
    (front back : List MapArea) :
    Cleaned ⟨table, front ++ area :: back⟩ (shallowPass area table envs).2.2.1
      ⟨(shallowPass area table envs).2.1, front ++ (shallowPass area table envs).1 :: back⟩ := by
  unfold shallowPass
  split
  · next chosen =>
    exact reclaimLoop_cleaned (fun _ _ _ _ => Frame.oomVictim_evicted) area.inner.active envs area table
      (isNone_iff_eq_none.mp chosen.2.2) front back
  · exact .refl _

theorem deepPass_cleaned (area : MapArea) (table : PageTable) (envs : Nat -> ReclaimEnv)
    (front back : List MapArea) :
    Cleaned ⟨table, front ++ area :: back⟩ (deepPass area table envs).2.2.1
      ⟨(deepPass area table envs).2.1, front ++ (deepPass area table envs).1 :: back⟩ := by
  unfold deepPass
  split
  · next chosen =>
    have anonymous := isNone_iff_eq_none.mp chosen.2
    split
    · exact reclaimLoop_cleaned (fun _ _ _ _ => Frame.forceVictim_evicted) area.inner.active envs area table
        anonymous front back
    · exact reclaimLoop_cleaned (fun _ _ _ _ => Frame.oomVictim_evicted) area.inner.active envs area table
        anonymous front back
  · exact .refl _

theorem doShallowClean_cleaned (set : MemorySet) (envs : Nat -> Nat -> ReclaimEnv) :
    Cleaned set (set.doShallowClean envs).2.2 (set.doShallowClean envs).2.1 :=
  cleanAreas_cleaned shallowPass_cleaned set.areas envs set.pageTable []

theorem doDeepClean_cleaned (set : MemorySet) (envs : Nat -> Nat -> ReclaimEnv) :
    Cleaned set (set.doDeepClean envs).2.2 (set.doDeepClean envs).2.1 :=
  cleanAreas_cleaned deepPass_cleaned set.areas envs set.pageTable []

end MemorySet

end GCore.Mm

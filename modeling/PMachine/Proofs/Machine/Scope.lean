import PMachine.Proofs.Machine.Step

/-!
# Scopes

A level counts scopes outwards from the current frame, over static links. What it leads to depends on the slots of these links
alone, which are `visited`; they may lie anywhere in the stack, in a circle or not.

Two statements rest on this. A call enters a frame one scope inside the frame that its level leads to: what was `n` scopes outside
that frame is `n + 1` scopes outside the new one. And a variable that is stored is loaded again, and the other way round,
wherever its slot lies, as long as nothing is written over the links that lead to it.
-/

namespace PMachine

namespace Machine

variable {m m₁ m' : Machine} {i : Instruction} {level address base v : Word} {k : Int}

/-- The slots of the static links on the way to the frame `level` scopes out. -/
def visited (m : Machine) (level : Word) : List Int := m.linkSlots level.toInt.toNat m.bp

/-- A level leads where it led before, if an instruction stays in the frame and writes none of the slots on the way. -/
theorem Step.findBase_eq_ok_iff (h : Step m i m') (hbp : m'.bp = m.bp) (hoff : ∀ slot ∈ m.written i, slot ∉ m.visited level) :
    m'.findBase level = .ok base ↔ m.findBase level = .ok base := by
  unfold findBase
  rw [hbp]
  exact h.follow_eq_ok_iff hoff

/-! ## Entering a scope -/

/-- The slots on the way after the first `a` links are those on the way from where these links lead. -/
theorem drop_linkSlots {a : Nat} {link : Word} (h : m.follow a base = .ok link) (n : Nat) :
    (m.linkSlots (a + n) base).drop a = m.linkSlots n link := by
  induction a generalizing base with
  | zero =>
    cases h
    rw [Nat.zero_add, List.drop_zero]
  | succ a ih =>
    rw [follow] at h
    rw [Nat.succ_add, linkSlots, List.drop_succ_cons]
    cases hs : m.slot base.toInt with
    | ok next =>
      rw [hs] at h
      exact ih h
    | error f =>
      rw [hs] at h
      cases h

/-- From the frame that a call enters, the first link leads to the frame that the level of the call led to. -/
theorem Step.follow_entered (h : Step m i m') (hi : i.opcode = .cal) (hsize : m.stack.size ≤ Numeral.maxWord + 1) :
    m'.bp.toInt = m.sp.toInt + 1 ∧
      ∃ link, m.findBase i.level = .ok link ∧ ∀ n, m'.follow (n + 1) m'.bp = m'.follow n link := by
  obtain ⟨link, hlink, hfirst, -, -, hroom, hbp, -⟩ := h.call hi
  have hbase : m'.bp.toInt = m.sp.toInt + 1 := by
    rw [hbp]
    exact hroom.toInt_add_one (by omega) hsize
  refine ⟨hbase, link, hlink, fun n => ?_⟩
  rw [follow, hbase, hfirst]

/-- On a stack whose slots all have words for numbers, a call enters the frame that starts above the stack top. Take a level
`outer` of `n` scopes more than the level of the call, where a level below zero counts as zero, and the level `inner` of `n + 1`
scopes. If none of the last `n` links that `outer` visits lies in the three slots of the new header, then `inner` leads from the
new frame to where `outer` led from the old one, or neither leads anywhere. -/
theorem findBase_after_call (hsize : m.stack.size ≤ Numeral.maxWord + 1)
    (hcall : m.execute ⟨.cal, level, address⟩ = .ok () m₁) :
    (∃ base, m₁.findBase 0 = .ok base ∧ base.toInt = m.sp.toInt + 1) ∧
    ∀ (n : Nat) (outer inner : Word), outer.toInt = max level.toInt 0 + n → inner.toInt = 1 + n →
      (∀ slot ∈ (m.visited outer).drop (max level.toInt 0).toNat, slot < m.sp.toInt + 1 ∨ m.sp.toInt + 3 < slot) →
      ∀ base, m₁.findBase inner = .ok base ↔ m.findBase outer = .ok base := by
  have hstep := step_of_execute hcall
  obtain ⟨hbp, link, hlink, hentered⟩ := hstep.follow_entered rfl hsize
  refine ⟨⟨m₁.bp, rfl, hbp⟩, fun n outer inner houter hinner hclear base => ?_⟩
  have hzero : (max level.toInt 0).toNat = level.toInt.toNat := by omega
  have houter' : outer.toInt.toNat = level.toInt.toNat + n := by omega
  have hinner' : inner.toInt.toNat = n + 1 := by omega
  have hlink' : m.follow level.toInt.toNat m.bp = .ok link := hlink
  rw [visited, houter', hzero, drop_linkSlots hlink'] at hclear
  have hoff : ∀ slot ∈ m.written ⟨.cal, level, address⟩, slot ∉ m.linkSlots n link := by
    intro slot hwritten hslot
    have hlies := hclear slot hslot
    simp only [written_cal, List.mem_cons, List.not_mem_nil, or_false] at hwritten
    omega
  -- Both ways go through the frame that the level of the call leads to, and differ only up to there.
  calc
    m₁.findBase inner = .ok base ↔ m₁.follow n link = .ok base := by rw [findBase, hinner', hentered]
    _ ↔ m.follow n link = .ok base := hstep.follow_eq_ok_iff hoff
    _ ↔ m.findBase outer = .ok base := by rw [findBase, houter', follow_add, hlink', Except.bind]

/-- Three frames, each in the scope of the one below it, and the outermost one linked below the stack. It lies two scopes out from
the frame that a call with level 1 enters, and three from the one that a call with a level below zero enters. Over the link below
the stack no level leads anywhere. -/
theorem findBase_after_call_nested :
    let m : Machine := { stack := #[-7, 0, 0, 0, 0, 2, 3, 3, 5, 0, 0, 0], pc := 7, bp := 6, sp := 8 }
    m.visited 4 = [6, 3, 0, -7] ∧
    (∃ m₁, m.execute ⟨.cal, 1, 20⟩ = .ok () m₁ ∧ (∃ base, m₁.findBase 0 = .ok base ∧ base.toInt = 9) ∧
      m₁.findBase 2 = .ok 0 ∧ ∀ base, m₁.findBase 4 ≠ .ok base) ∧
    ∃ m₁, m.execute ⟨.cal, -4, 20⟩ = .ok () m₁ ∧ m₁.findBase 3 = .ok 0 := by
  intro m
  have hsize : m.stack.size ≤ Numeral.maxWord + 1 := by decide
  obtain ⟨m₁, hcall₁⟩ : ∃ m₁, m.execute ⟨.cal, 1, 20⟩ = .ok () m₁ := ⟨_, rfl⟩
  obtain ⟨m₂, hcall₂⟩ : ∃ m₂, m.execute ⟨.cal, -4, 20⟩ = .ok () m₂ := ⟨_, rfl⟩
  obtain ⟨hentered, hlevels₁⟩ := findBase_after_call hsize hcall₁
  obtain ⟨-, hlevels₂⟩ := findBase_after_call hsize hcall₂
  have hfound₁ := hlevels₁ 1 2 2 (by decide) (by decide) (by decide) 0
  have hlost₁ := hlevels₁ 3 4 4 (by decide) (by decide) (by decide)
  have hfound₂ := hlevels₂ 2 2 3 (by decide) (by decide) (by decide) 0
  have houtermost : m.findBase 2 = .ok 0 := rfl
  have hfault : m.findBase 4 = .error ⟨0, .stackUnderflow (-7)⟩ := by rfl
  refine ⟨by decide, ⟨m₁, hcall₁, hentered, hfound₁.mpr houtermost, fun base hbase => ?_⟩, m₂, hcall₂,
    hfound₂.mpr houtermost⟩
  have hbase' := (hlost₁ base).mp hbase
  rw [hfault] at hbase'
  cases hbase'

/-! ## Storing and loading -/

/-- Writing the word that a slot holds changes nothing. -/
theorem set_of_slot (h : m.slot k = .ok v) : m.set k v = m := by
  obtain ⟨-, hv⟩ := slot_eq_ok_iff.mp h
  obtain ⟨hlt, rfl⟩ := Array.getElem?_eq_some_iff.mp hv
  simp [set, Array.setIfInBounds, hlt]

/-- A slot that holds a word holds it still after that word is written somewhere. -/
theorem slot_set_of_slot {j : Int} (hk : m.HasSlot k) (h : m.slot j = .ok v) : (m.set k v).slot j = .ok v := by
  by_cases hj : j = k
  · rw [hj]
    exact slot_set_self hk
  · exact (slot_set_of_ne hk hj).mpr h

/-- A variable that is stored off the links that lead to it is loaded again. The load pushes the word into the slot that the store
popped it from. It still lies there, whether or not that slot is the variable, so the load changes no slot. -/
theorem Step.load_stored (h : Step m ⟨.sto, level, address⟩ m₁) (hbase : m.findBase level = .ok base)
    (hoff : base.toInt + address.toInt ∉ m.visited level) :
    ∃ v m₂, m.top = .ok v ∧ m₁.slot (base.toInt + address.toInt) = .ok v ∧ Step m₁ ⟨.lod, level, address⟩ m₂ ∧
      m₂.sp = m.sp ∧ m₂.bp = m.bp ∧ m₂.top = .ok v ∧ m₂.stack = m₁.stack := by
  obtain ⟨base', v, hbase', htop, hslot, hstack, hbp, hsp⟩ := h.store rfl
  obtain rfl := Except.ok.inj (hbase.symm.trans hbase')
  have hwritten : ∀ slot ∈ m.written ⟨.sto, level, address⟩, slot ∉ m.visited level := by
    rw [written_sto hbase]
    exact List.forall_mem_singleton.mpr hoff
  have hfound : m₁.findBase level = .ok base := (h.findBase_eq_ok_iff hbp hwritten).mpr hbase
  have hstored : m₁.slot (base.toInt + address.toInt) = .ok v := (slot_eq_ok_congr hstack).mpr (slot_set_self hslot)
  have hkept : m₁.slot m.sp.toInt = .ok v := (slot_eq_ok_congr hstack).mpr (slot_set_of_slot hslot htop)
  have hback : m₁.sp.toInt + 1 = m.sp.toInt := by
    rw [hsp, Word.toInt_sub_one_of_nonneg (hasSlot_of_slot htop).1, Int.sub_add_cancel]
  have hsp' : m₁.sp + 1 = m.sp := by rw [hsp, Int32.sub_add_cancel]
  have hsame : m₁.set (m₁.sp.toInt + 1) v = m₁ := by
    rw [hback]
    exact set_of_slot hkept
  have hroom : m₁.HasSlot (m₁.sp.toInt + 1) := by
    rw [hback]
    exact hasSlot_of_slot hkept
  refine ⟨v, _, htop, hstored, .lod hfound hstored hroom, hsp', hbp, ?_, ?_⟩
  · show slot _ (m₁.sp + 1).toInt = .ok v
    rw [slot_mk, hsame, hsp']
    exact hkept
  · show (m₁.set (m₁.sp.toInt + 1) v).stack = m₁.stack
    rw [hsame]

/-- A variable that is loaded by a push off the links that lead to it is stored again. The store writes the word that the variable
holds, whether or not the push went there, so it changes no slot. -/
theorem Step.store_loaded (h : Step m ⟨.lod, level, address⟩ m₁) (hsize : m.stack.size ≤ Numeral.maxWord + 1)
    (hoff : m.sp.toInt + 1 ∉ m.visited level) :
    ∃ base v m₂, m.findBase level = .ok base ∧ m.slot (base.toInt + address.toInt) = .ok v ∧
      Step m₁ ⟨.sto, level, address⟩ m₂ ∧ m₂.sp = m.sp ∧ m₂.bp = m.bp ∧ m₂.slot (m.sp.toInt + 1) = .ok v ∧
      m₂.stack = (m.set (m.sp.toInt + 1) v).stack := by
  obtain ⟨base, v, hbase, hv, hroom, hstack, hbp, hsp⟩ := h.load rfl
  have hwritten : ∀ slot ∈ m.written ⟨.lod, level, address⟩, slot ∉ m.visited level :=
    List.forall_mem_singleton.mpr hoff
  have hfound : m₁.findBase level = .ok base := (h.findBase_eq_ok_iff hbp hwritten).mpr hbase
  have hpushed : m₁.slot (m.sp.toInt + 1) = .ok v := (slot_eq_ok_congr hstack).mpr (slot_set_self hroom)
  have hkept : m₁.slot (base.toInt + address.toInt) = .ok v := (slot_eq_ok_congr hstack).mpr (slot_set_of_slot hroom hv)
  have htop : m₁.top = .ok v := by
    rw [top, hsp, hroom.toInt_add_one (Int.le_refl 1) hsize]
    exact hpushed
  have hsame : m₁.set (base.toInt + address.toInt) v = m₁ := set_of_slot hkept
  refine ⟨base, v, _, hbase, hv, .sto hfound htop (hasSlot_of_slot hkept), ?_, hbp, ?_, ?_⟩
  · show m₁.sp - 1 = m.sp
    rw [hsp, Int32.add_sub_cancel]
  · rw [slot_mk, hsame]
    exact hpushed
  · show (m₁.set (base.toInt + address.toInt) v).stack = _
    rw [hsame]
    exact hstack

/-- Storing and loading a variable agree, in two parts.
1. After a store whose slot is none of those that its level visits, a load of the same variable succeeds. The stack top is back
   where it was, with the word that was stored, and the stack is as the store left it.
2. After a load that pushes into none of the slots that its level visits, a store of the same variable succeeds, if every slot of
   the stack has a word for a number. The stack top and the base are back, and so is the stack but for the slot above its top,
   which holds the word that was loaded. -/
theorem store_load_coherent (m : Machine) (level address : Word) :
    (∀ m₁ base, m.execute ⟨.sto, level, address⟩ = .ok () m₁ → m.findBase level = .ok base →
      base.toInt + address.toInt ∉ m.visited level →
      ∃ v m₂, m.top = .ok v ∧ m₁.slot (base.toInt + address.toInt) = .ok v ∧
        m₁.execute ⟨.lod, level, address⟩ = .ok () m₂ ∧ m₂.sp = m.sp ∧ m₂.bp = m.bp ∧ m₂.top = .ok v ∧
        m₂.stack = m₁.stack) ∧
    ∀ m₁, m.stack.size ≤ Numeral.maxWord + 1 → m.execute ⟨.lod, level, address⟩ = .ok () m₁ →
      m.sp.toInt + 1 ∉ m.visited level →
      ∃ base v m₂, m.findBase level = .ok base ∧ m.slot (base.toInt + address.toInt) = .ok v ∧
        m₁.execute ⟨.sto, level, address⟩ = .ok () m₂ ∧ m₂.sp = m.sp ∧ m₂.bp = m.bp ∧
        m₂.slot (m.sp.toInt + 1) = .ok v ∧ m₂.stack = (m.set (m.sp.toInt + 1) v).stack := by
  refine ⟨?_, ?_⟩
  · intro m₁ base hstore hbase hoff
    obtain ⟨v, m₂, htop, hstored, hload, hrest⟩ := (step_of_execute hstore).load_stored hbase hoff
    exact ⟨v, m₂, htop, hstored, hload.execute, hrest⟩
  · intro m₁ hsize hload hoff
    obtain ⟨base, v, m₂, hbase, hv, hstore, hrest⟩ := (step_of_execute hload).store_loaded hsize hoff
    exact ⟨base, v, m₂, hbase, hv, hstore.execute, hrest⟩

/-- Two frames that are linked to each other, so that a level of three visits one of them twice. The variable that is stored is
the stack top itself, and the one that is loaded is the slot above it. -/
theorem store_load_coherent_circle :
    let m : Machine := { stack := #[4, 0, 0, 0, 0, 0, 9, -5], pc := 3, bp := 4, sp := 6 }
    m.visited 3 = [4, 0, 4] ∧
    (∃ m₁ m₂, m.execute ⟨.sto, 3, 6⟩ = .ok () m₁ ∧ m₁.execute ⟨.lod, 3, 6⟩ = .ok () m₂ ∧ m₂.sp = 6 ∧ m₂.top = .ok 9 ∧
      m₂.stack = m₁.stack) ∧
    ∃ m₁ m₂, m.execute ⟨.lod, 3, 7⟩ = .ok () m₁ ∧ m₁.execute ⟨.sto, 3, 7⟩ = .ok () m₂ ∧ m₂.sp = 6 ∧ m₂.bp = 4 ∧
      m₂.slot 7 = .ok (-5) ∧ m₂.stack = m.stack := by
  intro m
  have hbase : m.findBase 3 = .ok 0 := rfl
  refine ⟨by decide, ?_, ?_⟩
  · have htop : m.top = .ok 9 := rfl
    have hstep : Step m ⟨.sto, 3, 6⟩ _ := .sto hbase htop (by decide)
    obtain ⟨m₁, hstore⟩ : ∃ m₁, m.execute ⟨.sto, 3, 6⟩ = .ok () m₁ := ⟨_, hstep.execute⟩
    obtain ⟨v, m₂, hv, -, hload, hsp, -, htop', hstack⟩ := (store_load_coherent m 3 6).1 m₁ 0 hstore hbase (by decide)
    obtain rfl := Except.ok.inj (htop.symm.trans hv)
    exact ⟨m₁, m₂, hstore, hload, hsp, htop', hstack⟩
  · have hslot : m.slot 7 = .ok (-5) := rfl
    have hstep : Step m ⟨.lod, 3, 7⟩ _ := .lod hbase hslot (by decide)
    obtain ⟨m₁, hload⟩ : ∃ m₁, m.execute ⟨.lod, 3, 7⟩ = .ok () m₁ := ⟨_, hstep.execute⟩
    have hsame : m.set 7 (-5) = m := set_of_slot hslot
    obtain ⟨base, v, m₂, hbase', hv, hstore, hsp, hbp, hslot', hstack⟩ :=
      (store_load_coherent m 3 7).2 m₁ (by decide) hload (by decide)
    obtain rfl := Except.ok.inj (hbase.symm.trans hbase')
    obtain rfl := Except.ok.inj (hslot.symm.trans hv)
    exact ⟨m₁, m₂, hload, hstore, hsp, hbp, hslot', hstack.trans (congrArg stack hsame)⟩

end Machine

end PMachine

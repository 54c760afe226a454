import PMachine.Proofs.Machine.Step

/-!
# Frames of orderly runs

Nothing in the machine keeps its registers or the headers of its frames in order. Code as a compiler writes it does: it reserves
the header of a frame before it does anything else there, pops no more than it pushed in the frame, and stores into variables
only. `OrderlyRun` says what such a run may execute, and with which frames it has come where.

The frames that are active then form a chain: from the outermost one at slot 0 each starts above the header of the one before
it, their headers hold what their calls wrote, and every static link is the base of one of them. So a level leads to an active
frame, however large it is.
-/

namespace PMachine

/-- A frame that is active: its base, and what its call wrote into the three slots of its header. -/
structure Frame where
  base : Word
  /-- The static link. -/
  link : Word
  /-- The dynamic link. -/
  caller : Word
  /-- The return address. -/
  resume : Word
  deriving DecidableEq, Repr

/-- The frame that a run starts in. No call made it; its header is that of an empty stack. -/
def Frame.outermost : Frame := ⟨0, 0, 0, 0⟩

/-- Whether `slot` is a variable of the frame with base `base`, where the first of the frames ends below `limit` and every other
one below the base of the frame in front of it: it lies above the header of that frame, and the frame does not end below it. -/
def IsVariable (limit : Int) : List Frame → Word → Int → Prop
  | [], _, _ => False
  | f :: fs, base, slot =>
    (f.base = base ∧ f.base.toInt + 3 ≤ slot ∧ slot < limit) ∨ IsVariable f.base.toInt fs base slot

namespace Machine

/-- What an orderly run may execute, calls and returns aside, once the header of the current frame is reserved. `fs` are the
active frames, the current one first. -/
def Allows (m : Machine) (fs : List Frame) (i : Instruction) : Prop :=
  match i.opcode with
  | .int => m.bp.toInt + 2 ≤ m.sp.toInt + i.address.toInt ∧ m.sp.toInt + i.address.toInt ≤ Numeral.maxWord
  | .sto =>
    m.bp.toInt + 3 ≤ m.sp.toInt ∧ ∃ base, m.findBase i.level = .ok base ∧
      IsVariable (m.sp.toInt + 1) fs base (base.toInt + i.address.toInt)
  | .jpc => m.bp.toInt + 3 ≤ m.sp.toInt
  | .opr =>
    match i.operation? with
    | some (.unary _) => m.bp.toInt + 3 ≤ m.sp.toInt
    | some (.binary _) => m.bp.toInt + 4 ≤ m.sp.toInt
    | _ => True
  | _ => True

/-- An orderly run on a stack of `size` slots has come to a machine on which the given frames are active, the current one first.
The flag tells that the current frame is fresh: it was entered, and its header is not reserved yet. When the outermost frame has
returned no frame is active, and the run is over. -/
inductive OrderlyRun (size : Nat) : Machine → List Frame → Bool → Prop where
  | start : OrderlyRun size (.initial size) [.outermost] true
  | jump {m m' : Machine} {f : Frame} {fs : List Frame} {i : Instruction} (hrun : OrderlyRun size m (f :: fs) true)
      (hi : i.opcode = .jmp) (hexec : m.execute i = .ok () m') : OrderlyRun size m' (f :: fs) true
  | reserve {m m' : Machine} {f : Frame} {fs : List Frame} {i : Instruction} (hrun : OrderlyRun size m (f :: fs) true)
      (hi : i.opcode = .int) (hlo : 3 ≤ i.address.toInt) (hhi : m.sp.toInt + i.address.toInt ≤ Numeral.maxWord)
      (hexec : m.execute i = .ok () m') : OrderlyRun size m' (f :: fs) false
  | call {m m' : Machine} {f : Frame} {fs : List Frame} {i : Instruction} {link : Word}
      (hrun : OrderlyRun size m (f :: fs) false) (hi : i.opcode = .cal) (hlink : m.findBase i.level = .ok link)
      (hexec : m.execute i = .ok () m') : OrderlyRun size m' (⟨m.sp + 1, link, m.bp, m.pc + 1⟩ :: f :: fs) true
  | ret {m m' : Machine} {f : Frame} {fs : List Frame} {i : Instruction} (hrun : OrderlyRun size m (f :: fs) false)
      (hi : i.IsReturn) (hexec : m.execute i = .ok () m') : OrderlyRun size m' fs false
  | work {m m' : Machine} {f : Frame} {fs : List Frame} {i : Instruction} (hrun : OrderlyRun size m (f :: fs) false)
      (hcall : i.opcode ≠ .cal) (hret : ¬i.IsReturn) (hallow : m.Allows (f :: fs) i) (hexec : m.execute i = .ok () m') :
      OrderlyRun size m' (f :: fs) false

/-! ## Frames in a stack -/

/-- The header of a frame holds what its call wrote. -/
def HasHeader (m : Machine) (f : Frame) : Prop :=
  m.slot f.base.toInt = .ok f.link ∧ m.slot (f.base.toInt + 1) = .ok f.caller ∧ m.slot (f.base.toInt + 2) = .ok f.resume

/-- The frames form a chain: the header of each is in place, and each but the outermost starts above the header of its caller
and is linked to a frame that was active before it. -/
inductive Stacked (m : Machine) : List Frame → Prop where
  | outermost (hheader : m.HasHeader .outermost) : Stacked m [.outermost]
  | enter {f g : Frame} {fs : List Frame} (hin : Stacked m (g :: fs)) (hheader : m.HasHeader f) (hcaller : f.caller = g.base)
      (hbase : g.base.toInt + 3 ≤ f.base.toInt) (hlink : ∃ k ∈ g :: fs, k.base = f.link) : Stacked m (f :: g :: fs)

variable {m m' : Machine} {i : Instruction} {f : Frame} {fs : List Frame}

theorem Stacked.header (h : Stacked m fs) : ∀ f ∈ fs, m.HasHeader f := by
  induction h with
  | outermost hheader => exact List.forall_mem_singleton.mpr hheader
  | enter hin hheader hcaller hbase hlink ih => exact List.forall_mem_cons.mpr ⟨hheader, ih⟩

/-- Frames start at least three slots apart. -/
theorem Stacked.pairwise (h : Stacked m fs) : fs.Pairwise fun inner outer => outer.base.toInt + 3 ≤ inner.base.toInt := by
  induction h with
  | outermost => exact List.pairwise_singleton _ _
  | @enter f g fs hin hheader hcaller hbase hlink ih =>
    refine List.pairwise_cons.mpr ⟨?_, ih⟩
    intro outer houter
    rcases List.mem_cons.mp houter with rfl | hmem
    · exact hbase
    · have hg := (List.pairwise_cons.mp ih).1 outer hmem
      omega

theorem Stacked.getLast? (h : Stacked m fs) : fs.getLast? = some .outermost := by
  induction h with
  | outermost => rfl
  | enter hin hheader hcaller hbase hlink ih => rw [List.getLast?_cons_cons, ih]

/-- Every static link is the base of an active frame. -/
theorem Stacked.link (h : Stacked m fs) : ∀ f ∈ fs, ∃ g ∈ fs, g.base = f.link := by
  induction h with
  | outermost => exact List.forall_mem_singleton.mpr ⟨_, List.mem_singleton_self _, rfl⟩
  | @enter f g fs hin hheader hcaller hbase hlink ih =>
    intro k hk
    have hold : ∃ l ∈ g :: fs, l.base = k.link := by
      rcases List.mem_cons.mp hk with rfl | hmem
      · exact hlink
      · exact ih k hmem
    obtain ⟨l, hl, hbase⟩ := hold
    exact ⟨l, List.mem_cons_of_mem f hl, hbase⟩

/-- No active frame starts above the current one. -/
theorem Stacked.base_le (h : Stacked m (f :: fs)) : ∀ g ∈ f :: fs, g.base.toInt ≤ f.base.toInt := by
  intro g hg
  rcases List.mem_cons.mp hg with rfl | hmem
  · exact Int.le_refl _
  · have hpair := (List.pairwise_cons.mp h.pairwise).1 g hmem
    omega

/-- From the base of an active frame, links lead to bases of active frames. -/
theorem Stacked.follow (h : Stacked m fs) (hf : f ∈ fs) (n : Nat) : ∃ g ∈ fs, m.follow n f.base = .ok g.base := by
  induction n generalizing f with
  | zero => exact ⟨f, hf, rfl⟩
  | succ n ih =>
    obtain ⟨g, hg, hlink⟩ := h.link f hf
    rw [Machine.follow, (h.header f hf).1, ← hlink]
    exact ih hg

/-! ## What a step does to the frames -/

/-- Whether a slot lies in no header. -/
def ClearOf (fs : List Frame) (slot : Int) : Prop := ∀ f ∈ fs, slot < f.base.toInt ∨ f.base.toInt + 3 ≤ slot

/-- A slot above the header of the current frame lies in no header. -/
theorem Stacked.clearOf (h : Stacked m (f :: fs)) {slot : Int} (hslot : f.base.toInt + 3 ≤ slot) :
    ClearOf (f :: fs) slot := by
  intro g hg
  have hle := h.base_le g hg
  omega

/-- A variable of an active frame lies in no header. -/
theorem Stacked.clearOf_isVariable {limit : Int} {base : Word} {slot : Int} (h : Stacked m fs)
    (hlimit : ∀ f ∈ fs, f.base.toInt ≤ limit) (hvar : IsVariable limit fs base slot) : ClearOf fs slot ∧ slot < limit := by
  induction h generalizing limit with
  | outermost hheader =>
    rcases hvar with ⟨-, hlo, hhi⟩ | hvar
    · exact ⟨(Stacked.outermost hheader).clearOf hlo, hhi⟩
    · exact absurd hvar id
  | @enter f g fs hin hheader hcaller hbase hlink ih =>
    rcases hvar with ⟨-, hlo, hhi⟩ | hvar
    · exact ⟨(hin.enter hheader hcaller hbase hlink).clearOf hlo, hhi⟩
    -- A variable of an outer frame ends below the base of the frame in front, so it is clear of this one's header as well.
    · have houter : ∀ k ∈ g :: fs, k.base.toInt ≤ f.base.toInt :=
        fun k hk => (hin.enter hheader hcaller hbase hlink).base_le k (List.mem_cons_of_mem f hk)
      obtain ⟨hclear, hlt⟩ := ih houter hvar
      have hf := hlimit f List.mem_cons_self
      exact ⟨List.forall_mem_cons.mpr ⟨Or.inl hlt, hclear⟩, by omega⟩

/-- A header is left as it is by an instruction that writes none of its slots. -/
theorem Step.hasHeader (h : Step m i m') (hclear : ∀ slot ∈ m.written i, slot < f.base.toInt ∨ f.base.toInt + 3 ≤ slot)
    (hf : m.HasHeader f) : m'.HasHeader f := by
  have hoff : ∀ slot, f.base.toInt ≤ slot → slot < f.base.toInt + 3 → slot ∉ m.written i := by
    intro slot hlo hhi hmem
    have := hclear slot hmem
    omega
  obtain ⟨hlink, hcaller, hresume⟩ := hf
  exact ⟨(h.slot_eq_ok_iff (hoff _ (by omega) (by omega))).mpr hlink,
    (h.slot_eq_ok_iff (hoff _ (by omega) (by omega))).mpr hcaller,
    (h.slot_eq_ok_iff (hoff _ (by omega) (by omega))).mpr hresume⟩

/-- Frames stay stacked under an instruction that writes into no header. -/
theorem Step.stacked (h : Step m i m') (hclear : ∀ slot ∈ m.written i, ClearOf fs slot) (hs : Stacked m fs) :
    Stacked m' fs := by
  induction hs with
  | outermost hheader =>
    exact .outermost (h.hasHeader (fun slot hslot => hclear slot hslot _ List.mem_cons_self) hheader)
  | enter hin hheader hcaller hbase hlink ih =>
    have hin' := ih fun slot hslot k hk => hclear slot hslot k (List.mem_cons_of_mem _ hk)
    have hheader' := h.hasHeader (fun slot hslot => hclear slot hslot _ List.mem_cons_self) hheader
    exact hin'.enter hheader' hcaller hbase hlink

/-! ## What carries the run -/

/-- The frames are stacked and the first of them is the current one. Its header is still to be reserved as long as it is fresh,
and is reserved from then on. -/
structure Framed (m : Machine) (f : Frame) (fs : List Frame) (fresh : Bool) : Prop where
  stacked : Stacked m (f :: fs)
  base : f.base = m.bp
  fresh_top : fresh = true → m.sp.toInt + 1 = m.bp.toInt
  top : fresh = false → m.bp.toInt + 2 ≤ m.sp.toInt
  size_le : m.stack.size ≤ Numeral.maxWord + 1

variable {fresh : Bool}

theorem Framed.bp_nonneg (h : Framed m f fs fresh) : 0 ≤ m.bp.toInt := by
  have hheader := h.stacked.header f List.mem_cons_self
  rw [← h.base]
  exact (hasSlot_of_slot hheader.1).1

theorem Framed.bp_le (h : Framed m f fs fresh) : m.bp.toInt ≤ m.sp.toInt + 1 := by
  cases fresh with
  | true =>
    have htop := h.fresh_top rfl
    omega
  | false =>
    have htop := h.top rfl
    omega

/-- Every level leads to an active frame. -/
theorem Framed.findBase (h : Framed m f fs fresh) (level : Word) : ∃ g ∈ f :: fs, m.findBase level = .ok g.base := by
  unfold Machine.findBase
  rw [← h.base]
  exact h.stacked.follow List.mem_cons_self _

/-- A machine starts in the outermost frame, if its stack has room for a header. -/
theorem framed_initial {size : Nat} (hlo : 3 ≤ size) (hhi : size ≤ Numeral.maxWord + 1) :
    Framed (.initial size) .outermost [] true := by
  have hzero : ∀ j : Int, 0 ≤ j → j < 3 → (initial size).slot j = .ok 0 := by
    intro j h0 h3
    rw [slot_eq_ok_iff]
    refine ⟨h0, ?_⟩
    have hj : j.toNat < size := by omega
    simp [initial, hj]
  have hheader : (initial size).HasHeader .outermost :=
    ⟨hzero _ (by decide) (by decide), hzero _ (by decide) (by decide), hzero _ (by decide) (by decide)⟩
  exact ⟨.outermost hheader, rfl, fun _ => rfl, nofun, by simpa [initial] using hhi⟩

/-- The words add up without wrapping around as long as the sum is a word that is not negative. -/
theorem toInt_add_of_le {a b : Word} (hlo : 0 ≤ a.toInt + b.toInt) (hhi : a.toInt + b.toInt ≤ Numeral.maxWord) :
    (a + b).toInt = a.toInt + b.toInt := by
  unfold Numeral.maxWord at hhi
  rw [Int32.toInt_add, Int.bmod_def]
  omega

/-- An instruction that stays in the current frame, writes into no header and leaves the stack top in place. -/
theorem Step.framed {fresh' : Bool} (h : Step m i m') (hf : Framed m f fs fresh) (hbp : m'.bp = m.bp)
    (hclear : ∀ slot ∈ m.written i, ClearOf (f :: fs) slot) (hfresh : fresh' = true → m'.sp.toInt + 1 = m.bp.toInt)
    (htop : fresh' = false → m.bp.toInt + 2 ≤ m'.sp.toInt) : Framed m' f fs fresh' := by
  refine ⟨h.stacked hclear hf.stacked, hf.base.trans hbp.symm, ?_, ?_, ?_⟩
  · rw [hbp]
    exact hfresh
  · rw [hbp]
    exact htop
  · rw [h.stack_size]
    exact hf.size_le

/-- A jump leaves a fresh frame fresh. -/
theorem Step.framed_jump (h : Step m i m') (hi : i.opcode = .jmp) (hf : Framed m f fs true) : Framed m' f fs true := by
  have hstep := h
  cases h with
  | jmp => exact hstep.framed hf rfl nofun hf.fresh_top nofun
  | lit | lod | sto | cal | int | jpc | leave | unary | binary => cases hi

/-- The first `int` of a frame reserves its header. -/
theorem Step.framed_reserve (h : Step m i m') (hi : i.opcode = .int) (hlo : 3 ≤ i.address.toInt)
    (hhi : m.sp.toInt + i.address.toInt ≤ Numeral.maxWord) (hf : Framed m f fs true) : Framed m' f fs false := by
  have hstep := h
  cases h with
  | @int level address =>
    have hbp := hf.bp_nonneg
    have htop := hf.fresh_top rfl
    have hfits : 3 ≤ address.toInt := hlo
    have hsp : (m.sp + address).toInt = m.sp.toInt + address.toInt := toInt_add_of_le (by omega) hhi
    refine hstep.framed hf rfl nofun nofun fun _ => ?_
    show m.bp.toInt + 2 ≤ (m.sp + address).toInt
    omega
  | lit | lod | sto | cal | jmp | jpc | leave | unary | binary => cases hi

/-- What an orderly run executes between calls and returns writes into no header, and does not pop the header of the current
frame. -/
theorem Step.keeps_headers (h : Step m i m') (hcall : i.opcode ≠ .cal) (hret : ¬i.IsReturn) (hallow : m.Allows (f :: fs) i)
    (hf : Framed m f fs false) :
    (∀ slot ∈ m.written i, ClearOf (f :: fs) slot) ∧ m.bp.toInt + 2 ≤ m'.sp.toInt := by
  have hbp := hf.bp_nonneg
  have htop := hf.top rfl
  have habove : ∀ slot, m.bp.toInt + 3 ≤ slot → ClearOf (f :: fs) slot := by
    intro slot hslot
    rw [← hf.base] at hslot
    exact hf.stacked.clearOf hslot
  have hpop : (m.sp - 1).toInt = m.sp.toInt - 1 := Word.toInt_sub_one_of_nonneg (by omega)
  cases h with
  | lit hslot =>
    have hsp := hslot.toInt_add_one (by omega) hf.size_le
    refine ⟨List.forall_mem_singleton.mpr (habove _ (by omega)), ?_⟩
    show m.bp.toInt + 2 ≤ (m.sp + 1).toInt
    omega
  | lod hbase hw hslot =>
    have hsp := hslot.toInt_add_one (by omega) hf.size_le
    refine ⟨List.forall_mem_singleton.mpr (habove _ (by omega)), ?_⟩
    show m.bp.toInt + 2 ≤ (m.sp + 1).toInt
    omega
  | sto hbase hw hslot =>
    -- The one write that can lie below the current frame.
    obtain ⟨hsp, base, hbase', hvar⟩ := hallow
    rw [written_sto hbase]
    obtain rfl := Except.ok.inj (hbase.symm.trans hbase')
    have hlimit : ∀ k ∈ f :: fs, k.base.toInt ≤ m.sp.toInt + 1 := by
      intro k hk
      have hle := hf.stacked.base_le k hk
      rw [hf.base] at hle
      omega
    refine ⟨List.forall_mem_singleton.mpr (hf.stacked.clearOf_isVariable hlimit hvar).1, ?_⟩
    show m.bp.toInt + 2 ≤ (m.sp - 1).toInt
    omega
  | cal => exact absurd rfl hcall
  | @int level address =>
    obtain ⟨hlo, hhi⟩ := hallow
    have hfits : m.bp.toInt + 2 ≤ m.sp.toInt + address.toInt := hlo
    have hsp : (m.sp + address).toInt = m.sp.toInt + address.toInt := toInt_add_of_le (by omega) hhi
    refine ⟨nofun, ?_⟩
    show m.bp.toInt + 2 ≤ (m.sp + address).toInt
    omega
  | jmp => exact ⟨nofun, htop⟩
  | jpc hw =>
    have hsp : m.bp.toInt + 3 ≤ m.sp.toInt := hallow
    refine ⟨nofun, ?_⟩
    show m.bp.toInt + 2 ≤ (m.sp - 1).toInt
    omega
  | leave => exact absurd ⟨rfl, rfl⟩ hret
  | unary ha =>
    rw [written_unary]
    have hsp : m.bp.toInt + 3 ≤ m.sp.toInt := by simpa [Allows, Instruction.operation?] using hallow
    exact ⟨List.forall_mem_singleton.mpr (habove _ hsp), htop⟩
  | binary ha hb hc =>
    rw [written_binary]
    have hsp : m.bp.toInt + 4 ≤ m.sp.toInt := by simpa [Allows, Instruction.operation?] using hallow
    refine ⟨List.forall_mem_singleton.mpr (habove _ (by omega)), ?_⟩
    show m.bp.toInt + 2 ≤ (m.sp - 1).toInt
    omega

/-- A call enters a frame above the header of the caller, linked to the frame that its level leads to. -/
theorem Step.framed_call {link : Word} (h : Step m i m') (hi : i.opcode = .cal) (hlink : m.findBase i.level = .ok link)
    (hf : Framed m f fs false) : Framed m' ⟨m.sp + 1, link, m.bp, m.pc + 1⟩ (f :: fs) true := by
  have htop := hf.top rfl
  obtain ⟨link', hlink', hs1, hs2, hs3, hroom, hbp, hsp⟩ := h.call hi
  obtain rfl := Except.ok.inj (hlink.symm.trans hlink')
  have hbase : (m.sp + 1).toInt = m.sp.toInt + 1 := hroom.toInt_add_one (by omega) hf.size_le
  have hclear : ∀ slot ∈ m.written i, ClearOf (f :: fs) slot := by
    intro slot hslot
    obtain ⟨opcode, level, address⟩ := i
    cases hi
    simp only [written_cal, List.mem_cons, List.not_mem_nil, or_false] at hslot
    refine hf.stacked.clearOf ?_
    rw [hf.base]
    omega
  have hheader : m'.HasHeader ⟨m.sp + 1, link, m.bp, m.pc + 1⟩ := by
    unfold HasHeader
    rw [hbase]
    refine ⟨hs1, ?_, ?_⟩
    · rw [show m.sp.toInt + 1 + 1 = m.sp.toInt + 2 by omega]
      exact hs2
    · rw [show m.sp.toInt + 1 + 2 = m.sp.toInt + 3 by omega]
      exact hs3
  have hsource : ∃ k ∈ f :: fs, k.base = link := by
    obtain ⟨k, hk, hfound⟩ := hf.findBase i.level
    exact ⟨k, hk, Except.ok.inj (hfound.symm.trans hlink)⟩
  refine ⟨(h.stacked hclear hf.stacked).enter hheader hf.base.symm ?_ hsource, hbp.symm, ?_, nofun, ?_⟩
  · show f.base.toInt + 3 ≤ (m.sp + 1).toInt
    rw [hf.base, hbase]
    omega
  · intro _
    rw [hsp, hbp, hbase]
  · rw [h.stack_size]
    exact hf.size_le

/-- The machine that a run has come to: its frames are in order, or the outermost one has returned. -/
def Ordered (m : Machine) (fresh : Bool) : List Frame → Prop
  | [] => m.pc = 0 ∧ m.bp = 0 ∧ m.sp = -1
  | f :: fs => Framed m f fs fresh

/-- A return drops the current frame and exposes its caller's, with the header that this reserved. -/
theorem Step.ordered_return (h : Step m i m') (hi : i.IsReturn) (hf : Framed m f fs false) : Ordered m' false fs := by
  have hbp := hf.bp_nonneg
  have hdown : (m.bp - 1).toInt = m.bp.toInt - 1 := Word.toInt_sub_one_of_nonneg hbp
  obtain ⟨-, hcaller, hresume⟩ := hf.stacked.header f List.mem_cons_self
  obtain ⟨pc, bp, hpc, hlink, rfl⟩ := h.ret hi
  rw [hdown, show m.bp.toInt - 1 + 3 = m.bp.toInt + 2 by omega, ← hf.base, hresume] at hpc
  rw [hdown, show m.bp.toInt - 1 + 2 = m.bp.toInt + 1 by omega, ← hf.base, hcaller] at hlink
  obtain rfl := Except.ok.inj hpc
  obtain rfl := Except.ok.inj hlink
  have hclear : ∀ slot ∈ m.written i, ClearOf (f :: fs) slot := by
    rw [written_of_isReturn hi]
    exact nofun
  cases h.stacked hclear hf.stacked with
  | outermost =>
    refine ⟨rfl, rfl, ?_⟩
    show m.bp - 1 = -1
    rw [← hf.base]
    rfl
  | enter hin hheader hcaller' hbase hlink' =>
    refine ⟨hin, hcaller'.symm, nofun, fun _ => ?_, hf.size_le⟩
    show f.caller.toInt + 2 ≤ (m.bp - 1).toInt
    rw [hcaller', hdown, ← hf.base]
    omega

/-- An orderly run keeps its frames in order. -/
theorem OrderlyRun.ordered {size : Nat} (hlo : 3 ≤ size) (hhi : size ≤ Numeral.maxWord + 1)
    (h : OrderlyRun size m fs fresh) : Ordered m fresh fs := by
  induction h with
  | start => exact framed_initial hlo hhi
  | jump hrun hi hexec ih => exact (step_of_execute hexec).framed_jump hi ih
  | reserve hrun hi hlo hhi hexec ih => exact (step_of_execute hexec).framed_reserve hi hlo hhi ih
  | call hrun hi hlink hexec ih => exact (step_of_execute hexec).framed_call hi hlink ih
  | ret hrun hi hexec ih => exact (step_of_execute hexec).ordered_return hi ih
  | work hrun hcall hret hallow hexec ih =>
    have hstep := step_of_execute hexec
    obtain ⟨hclear, htop⟩ := hstep.keeps_headers hcall hret hallow ih
    exact hstep.framed ih (hstep.bp_eq hcall hret) hclear nofun fun _ => htop

/-- On a stack that has room for a header and whose slots all have words for numbers, wherever an orderly run has come: the base
is not negative and lies at most one slot above the stack top; the active frames start at least three slots apart, from the
outermost one at slot 0 up to the current one at the base; their headers hold what their calls wrote, and every static link is
the base of an active frame, to which every level therefore leads. When the outermost frame has returned, the registers are
those that the run started with. -/
theorem orderlyRun_frames_chained {size : Nat} (hlo : 3 ≤ size) (hhi : size ≤ Numeral.maxWord + 1)
    (h : OrderlyRun size m fs fresh) :
    (0 ≤ m.bp.toInt ∧ m.bp.toInt ≤ m.sp.toInt + 1) ∧
    fs.Pairwise (fun inner outer => outer.base.toInt + 3 ≤ inner.base.toInt) ∧
    (∀ f ∈ fs, m.slot f.base.toInt = .ok f.link ∧ m.slot (f.base.toInt + 1) = .ok f.caller ∧
      m.slot (f.base.toInt + 2) = .ok f.resume) ∧
    (∀ f ∈ fs, ∃ g ∈ fs, g.base = f.link) ∧
    (fs ≠ [] → fs.head?.map (·.base) = some m.bp ∧ fs.getLast? = some ⟨0, 0, 0, 0⟩ ∧
      ∀ level, ∃ f ∈ fs, m.findBase level = .ok f.base) ∧
    (fs = [] → m.pc = 0 ∧ m.bp = 0 ∧ m.sp = -1) := by
  have hord := h.ordered hlo hhi
  cases fs with
  | nil =>
    obtain ⟨hpc, hbp, hsp⟩ := hord
    refine ⟨?_, List.Pairwise.nil, nofun, nofun, fun hne => absurd rfl hne, fun _ => ⟨hpc, hbp, hsp⟩⟩
    rw [hbp, hsp]
    decide
  | cons f fs =>
    have hf : Framed m f fs fresh := hord
    refine ⟨⟨hf.bp_nonneg, hf.bp_le⟩, hf.stacked.pairwise, hf.stacked.header, hf.stacked.link, ?_, nofun⟩
    intro _
    exact ⟨congrArg some hf.base, hf.stacked.getLast?, hf.findBase⟩

/-- A procedure that stores into a variable of the outermost frame and then calls itself: three frames are active, the inner two
linked to the outermost one. -/
theorem orderlyRun_frames_chained_recursive :
    let m : Machine := { stack := #[0, 0, 0, 9, 0, 0, 3, 0, 4, 7, 0, 0], pc := 3, bp := 7, sp := 6, site := 6 }
    let fs : List Frame := [⟨7, 0, 4, 7⟩, ⟨4, 0, 0, 3⟩, ⟨0, 0, 0, 0⟩]
    OrderlyRun 12 m fs true ∧ (0 ≤ m.bp.toInt ∧ m.bp.toInt ≤ m.sp.toInt + 1) ∧
      fs.Pairwise (fun inner outer => outer.base.toInt + 3 ≤ inner.base.toInt) ∧
      ∀ level, ∃ f ∈ fs, m.findBase level = .ok f.base := by
  intro m fs
  have hmain : OrderlyRun 12 { initial 12 with pc := 2, sp := 3, site := 1 } [.outermost] false :=
    (OrderlyRun.start.jump (i := ⟨.jmp, 0, 1⟩) rfl rfl).reserve (i := ⟨.int, 0, 4⟩) rfl (by decide) (by decide) rfl
  have hentered : OrderlyRun 12 ⟨#[0, 0, 0, 0, 0, 0, 3, 0, 0, 0, 0, 0], 3, 4, 3, 2⟩ [⟨4, 0, 0, 3⟩, .outermost] true :=
    hmain.call (i := ⟨.cal, 0, 3⟩) rfl rfl rfl
  have hpushed : OrderlyRun 12 ⟨#[0, 0, 0, 0, 0, 0, 3, 9, 0, 0, 0, 0], 5, 4, 7, 4⟩ [⟨4, 0, 0, 3⟩, .outermost] false :=
    (hentered.reserve (i := ⟨.int, 0, 3⟩) rfl (by decide) (by decide) rfl).work (i := ⟨.lit, 0, 9⟩) (by decide) (by decide)
      trivial rfl
  have hstored : OrderlyRun 12 ⟨#[0, 0, 0, 9, 0, 0, 3, 9, 0, 0, 0, 0], 6, 4, 6, 5⟩ [⟨4, 0, 0, 3⟩, .outermost] false :=
    hpushed.work (i := ⟨.sto, 1, 3⟩) (by decide) (by decide)
      ⟨by decide, 0, rfl, Or.inr (Or.inl ⟨rfl, by decide, by decide⟩)⟩ rfl
  have hrun : OrderlyRun 12 m fs true := hstored.call (i := ⟨.cal, 1, 3⟩) rfl rfl rfl
  obtain ⟨hregs, hapart, -, -, hlevels, -⟩ := orderlyRun_frames_chained (by decide) (by decide) hrun
  exact ⟨hrun, hregs, hapart, (hlevels nofun).2.2⟩

end Machine

end PMachine

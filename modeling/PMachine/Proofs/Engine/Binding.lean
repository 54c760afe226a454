import PMachine.Engine.Session

/-!
# Binding once

Binding appends to what a session holds, but a session that is unbound holds nothing: so a bound session holds exactly the
program that was bound first, and no more. `Session.Reached` are the sessions that any calls lead to, each with the program that
was bound in it, and `Session.Holds` is what every call keeps: the session is as this program, or the lack of one, says. Seen
through the engine that runs, appending is therefore binding.
-/

namespace PMachine

namespace Engine

theorem checkLength_of_le {c : Config} {length : Nat} (h : length ≤ c.capacity) : checkLength c length = .ok () :=
  if_neg (Nat.not_lt.mpr h)

theorem checkLength_of_lt {c : Config} {length : Nat} (h : c.capacity < length) :
    checkLength c length = .error (.addressSpaceExceeded length c.capacity) :=
  if_pos h

/-- An engine is made of a program exactly if the program fits, and then the program is bound. -/
theorem ofProgram_eq_ok_iff {p : Program} {c : Config} {e : Engine} :
    ofProgram p c = .ok e ↔ p.size ≤ c.capacity ∧ e = ⟨c, some p⟩ := by
  unfold ofProgram withRoom
  by_cases h : p.size ≤ c.capacity
  · simp [checkLength_of_le h, Engine.bind, isBound, h, eq_comm]
  · have hlt : c.capacity < p.size := by omega
    simp [checkLength_of_lt hlt, h]

end Engine

namespace Session

variable {s s' : Session} {c : Config} {p : Program} {bound : Option Program}

/-! ## Constructors and single calls -/

theorem withRoom_of_le {n : Nat} (h : n ≤ c.capacity) : withRoom n c = .ok { config := c } := by
  rw [withRoom, Engine.checkLength_of_le h]
  rfl

theorem withRoom_of_lt {n : Nat} (h : c.capacity < n) : withRoom n c = .error (.addressSpaceExceeded n c.capacity) := by
  rw [withRoom, Engine.checkLength_of_lt h]
  rfl

/-- The session with a program behind the instructions that it holds. -/
def append (s : Session) (p : Program) : Session :=
  { s with instructions := s.instructions ++ p.instructions, isBound := true }

/-- Binding to an unbound session is the check of the length and then the change. -/
theorem bind_of_unbound (h : s.isBound = false) : (bind p).run s =
    (MonadExcept.ofExcept (Engine.checkLength s.config p.size) >>= fun _ => modify (append · p) :
      EStateM Error Session Unit).run s := by
  obtain ⟨config, instructions, isBound⟩ := s
  cases h
  rfl

theorem bind_of_isBound (h : s.isBound = true) : (bind p).run s = .error .alreadyBound s := by
  obtain ⟨config, instructions, isBound⟩ := s
  cases h
  rfl

theorem bind_of_lt (h : s.isBound = false) (hlt : s.config.capacity < p.size) :
    (bind p).run s = .error (.addressSpaceExceeded p.size s.config.capacity) s := by
  rw [bind_of_unbound h, Engine.checkLength_of_lt hlt]
  rfl

theorem bind_of_le (h : s.isBound = false) (hle : p.size ≤ s.config.capacity) : (bind p).run s = .ok () (s.append p) := by
  rw [bind_of_unbound h, Engine.checkLength_of_le hle]
  rfl

theorem ofProgram_of_le (h : p.size ≤ c.capacity) : ofProgram p c = .ok (append { config := c } p) := by
  have hbind : (bind p).run { config := c } = .ok () (append { config := c } p) := bind_of_le rfl h
  rw [ofProgram, withRoom_of_le h]
  simp only [Bind.bind, Except.bind, hbind]
  rfl

theorem ofProgram_of_lt (h : c.capacity < p.size) :
    ofProgram p c = .error (.addressSpaceExceeded p.size c.capacity) := by
  rw [ofProgram, withRoom_of_lt h]
  rfl

theorem serve_bind_of_isBound (h : s.isBound = true) : s.serve (.bind p) = (.bound (.error .alreadyBound), s) := by
  rw [serve, bind_of_isBound h]

theorem serve_bind_of_lt (h : s.isBound = false) (hlt : s.config.capacity < p.size) :
    s.serve (.bind p) = (.bound (.error (.addressSpaceExceeded p.size s.config.capacity)), s) := by
  rw [serve, bind_of_lt h hlt]

theorem serve_bind_of_le (h : s.isBound = false) (hle : p.size ≤ s.config.capacity) :
    s.serve (.bind p) = (.bound (.ok ()), s.append p) := by
  rw [serve, bind_of_le h hle]

/-- What binding can do. A session that is bound refuses whatever the length is, and whoever is refused finds the session as it
was. -/
theorem serve_bind_cases (s : Session) (p : Program) :
    (s.isBound = true ∧ s.serve (.bind p) = (.bound (.error .alreadyBound), s)) ∨
      (s.isBound = false ∧ s.config.capacity < p.size ∧
        s.serve (.bind p) = (.bound (.error (.addressSpaceExceeded p.size s.config.capacity)), s)) ∨
      (s.isBound = false ∧ p.size ≤ s.config.capacity ∧ s.serve (.bind p) = (.bound (.ok ()), s.append p)) := by
  cases h : s.isBound with
  | true => exact .inl ⟨rfl, serve_bind_of_isBound h⟩
  | false =>
    rcases Nat.lt_or_ge s.config.capacity p.size with hlt | hle
    · exact .inr (.inl ⟨rfl, hlt, serve_bind_of_lt h hlt⟩)
    · exact .inr (.inr ⟨rfl, hle, serve_bind_of_le h hle⟩)

/-! ## Any calls -/

/-- The program that a call has bound, as the answer to it tells. -/
def Call.bound? : Call → Answer → Option Program
  | .bind p, .bound (.ok _) => some p
  | _, _ => none

/-- The sessions of a configuration that calls lead to, in any order and whatever is answered. With each goes the program that
was bound from the start or else by the first binding that succeeded, if there is one. -/
inductive Reached (c : Config) : Option Program → Session → Prop where
  | room {n : Nat} {s : Session} (h : withRoom n c = .ok s) : Reached c none s
  | program {p : Program} {s : Session} (h : ofProgram p c = .ok s) : Reached c (some p) s
  | call {bound : Option Program} {s : Session} (h : Reached c bound s) (call : Call) :
      Reached c (bound.or (call.bound? (s.serve call).1)) (s.serve call).2

/-- A session is as a program that is bound in it, or the lack of one, says. -/
structure Holds (s : Session) (c : Config) (bound : Option Program) : Prop where
  config_eq : s.config = c
  isBound_eq : s.isBound = bound.isSome
  instructions_eq : s.instructions = (bound.getD {}).instructions
  size_le : ∀ p, bound = some p → p.size ≤ c.capacity

/-- A fresh session holds nothing. -/
theorem holds_fresh (c : Config) : Holds { config := c } c none := ⟨rfl, rfl, rfl, nofun⟩

/-- In an unbound session no program has been bound. -/
theorem Holds.bound_eq_none (h : s.Holds c bound) (hfree : s.isBound = false) : bound = none := by
  have hbound := h.isBound_eq
  rw [hfree] at hbound
  exact Option.not_isSome_iff_eq_none.mp (by simp [← hbound])

/-- Behind nothing, a program is all that the session holds. -/
theorem Holds.append (h : s.Holds c none) (hle : p.size ≤ c.capacity) : (s.append p).Holds c (some p) := by
  refine ⟨h.config_eq, rfl, ?_, fun q hq => Option.some.inj hq ▸ hle⟩
  have hnone : s.instructions = #[] := h.instructions_eq
  rw [Session.append, hnone, Array.empty_append]
  rfl

/-- Every call keeps the session as the program bound first says. -/
theorem Holds.serve (h : s.Holds c bound) (call : Call) :
    (s.serve call).2.Holds c (bound.or (call.bound? (s.serve call).1)) := by
  cases call with
  | execute turns => simpa [Session.serve, Call.bound?] using h
  | run turns => simpa [Session.serve, Call.bound?] using h
  | bind p =>
    rcases s.serve_bind_cases p with ⟨-, hserve⟩ | ⟨-, -, hserve⟩ | ⟨hfree, hle, hserve⟩
    · simpa [hserve, Call.bound?] using h
    · simpa [hserve, Call.bound?] using h
    · obtain rfl := h.bound_eq_none hfree
      rw [hserve]
      exact h.append (h.config_eq ▸ hle)

/-- Whatever calls were made, a session is as the program bound first says. -/
theorem Reached.holds (h : Reached c bound s) : s.Holds c bound := by
  induction h with
  | @room n s h =>
    rcases Nat.lt_or_ge c.capacity n with hlt | hle
    · cases (withRoom_of_lt hlt).symm.trans h
    · cases (withRoom_of_le hle).symm.trans h
      exact holds_fresh c
  | @program p s h =>
    rcases Nat.lt_or_ge c.capacity p.size with hlt | hle
    · cases (ofProgram_of_lt hlt).symm.trans h
    · cases (ofProgram_of_le hle).symm.trans h
      exact (holds_fresh c).append hle
  | call _ call ih => exact ih.serve call

/-- What runs is the program that was bound first. -/
theorem Holds.engine_eq (h : s.Holds c bound) : s.engine = ⟨c, bound⟩ := by
  obtain ⟨hconfig, hbound, hinstructions, -⟩ := h
  cases bound with
  | none => simp [engine, hconfig, hbound]
  | some p => simp [engine, hconfig, hbound, hinstructions]

/-! ## Sessions as engines -/

/-- A session is made of a program exactly if an engine is, and it runs as the engine does. -/
theorem map_engine_ofProgram (p : Program) (c : Config) : (ofProgram p c).map engine = Engine.ofProgram p c := by
  rcases Nat.lt_or_ge c.capacity p.size with hlt | hle
  · rw [ofProgram_of_lt hlt, Engine.ofProgram, Engine.withRoom, Engine.checkLength_of_lt hlt]
    rfl
  · rw [ofProgram_of_le hle, Engine.ofProgram_eq_ok_iff.mpr ⟨hle, rfl⟩]
    exact congrArg Except.ok ((holds_fresh c).append hle).engine_eq

/-- Appending to a session does to its engine what binding does: nothing stands in front of what is appended. -/
theorem Holds.engine_bind (h : s.Holds c bound) {result : Except Error Unit}
    (hanswer : (s.serve (.bind p)).1 = .bound result) :
    s.engine.bind p = result.map fun _ => (s.serve (.bind p)).2.engine := by
  have hengine := h.engine_eq
  have hconfig := h.config_eq
  have hbound := h.isBound_eq
  rcases s.serve_bind_cases p with ⟨hmark, hserve⟩ | ⟨hfree, hlt, hserve⟩ | ⟨hfree, hle, hserve⟩
  · rw [hserve] at hanswer
    cases hanswer
    rw [hengine]
    exact if_pos (hbound.symm.trans hmark)
  · obtain rfl := h.bound_eq_none hfree
    rw [hserve] at hanswer
    cases hanswer
    rw [hconfig] at hlt ⊢
    rw [hengine]
    simp [Engine.bind, Engine.isBound, Engine.checkLength_of_lt hlt, Except.map]
  · obtain rfl := h.bound_eq_none hfree
    rw [hserve] at hanswer ⊢
    cases hanswer
    rw [hconfig] at hle
    rw [hengine, (h.append hle).engine_eq]
    simp [Engine.bind, Engine.isBound, Engine.checkLength_of_le hle, Except.map]

/-! ## What the answers tell -/

/-- Room is refused exactly for more than a program can have. -/
theorem withRoom_eq_error_iff {n : Nat} {err : Error} :
    withRoom n c = .error err ↔ c.capacity < n ∧ err = .addressSpaceExceeded n c.capacity := by
  rcases Nat.lt_or_ge c.capacity n with hlt | hle
  · simp [withRoom_of_lt hlt, hlt, eq_comm]
  · simp [withRoom_of_le hle, Nat.not_lt.mpr hle]

/-- A program is refused exactly if it is too long. -/
theorem ofProgram_eq_error_iff {err : Error} :
    ofProgram p c = .error err ↔ c.capacity < p.size ∧ err = .addressSpaceExceeded p.size c.capacity := by
  rcases Nat.lt_or_ge c.capacity p.size with hlt | hle
  · simp [ofProgram_of_lt hlt, hlt, eq_comm]
  · simp [ofProgram_of_le hle, Nat.not_lt.mpr hle]

theorem answer_bind_eq_ok_iff :
    (s.serve (.bind p)).1 = .bound (.ok ()) ↔ s.isBound = false ∧ p.size ≤ s.config.capacity := by
  rcases s.serve_bind_cases p with ⟨hbound, hserve⟩ | ⟨hfree, hlt, hserve⟩ | ⟨hfree, hle, hserve⟩
  · simp [hserve, hbound]
  · simp [hserve, Nat.not_le.mpr hlt]
  · simp [hserve, hfree, hle]

theorem answer_bind_eq_alreadyBound_iff :
    (s.serve (.bind p)).1 = .bound (.error .alreadyBound) ↔ s.isBound = true := by
  rcases s.serve_bind_cases p with ⟨hbound, hserve⟩ | ⟨hfree, hlt, hserve⟩ | ⟨hfree, hle, hserve⟩
  · simp [hserve, hbound]
  · simp [hserve, hfree]
  · simp [hserve, hfree]

/-- A binding that is refused changes nothing, and the refusal tells why. -/
theorem of_answer_bind_eq_error {err : Error} (h : (s.serve (.bind p)).1 = .bound (.error err)) :
    (s.serve (.bind p)).2 = s ∧ (err = .alreadyBound ∨ err = .addressSpaceExceeded p.size s.config.capacity) := by
  rcases s.serve_bind_cases p with ⟨hbound, hserve⟩ | ⟨hfree, hlt, hserve⟩ | ⟨hfree, hle, hserve⟩
  · rw [hserve] at h ⊢
    cases h
    exact ⟨rfl, .inl rfl⟩
  · rw [hserve] at h ⊢
    cases h
    exact ⟨rfl, .inr rfl⟩
  · rw [hserve] at h
    cases h

/-- Of every configuration, for which a program has one instruction less than there are addresses. Neither constructor refuses
anything but a length above this limit. Wherever calls have led to, an unbound session holds nothing, and a bound one exactly the
program that was bound from the start or else first, which fits. Binding succeeds if and only if the session is unbound and the
program fits; a session that is bound says so whatever the length is; and a refusal changes nothing, so that a program that fits
can still be bound. A run is one of that program and changes nothing either. A session that was made for some other length and
then bound is the one that is made with the program. -/
theorem bound_once (c : Config) :
    (∀ n err, withRoom n c = .error err ↔ c.addressSpace - 1 < n ∧ err = .addressSpaceExceeded n (c.addressSpace - 1)) ∧
    (∀ p err, ofProgram p c = .error err ↔
      c.addressSpace - 1 < p.size ∧ err = .addressSpaceExceeded p.size (c.addressSpace - 1)) ∧
    (∀ bound s, Reached c bound s →
      s.config = c ∧
      (s.isBound = false → bound = none ∧ s.instructions = #[]) ∧
      (s.isBound = true → ∃ p, bound = some p ∧ s.instructions = p.instructions ∧ p.size ≤ c.addressSpace - 1) ∧
      (∀ p, (s.serve (.bind p)).1 = .bound (.ok ()) ↔ s.isBound = false ∧ p.size ≤ c.addressSpace - 1) ∧
      (∀ p, (s.serve (.bind p)).1 = .bound (.error .alreadyBound) ↔ s.isBound = true) ∧
      (∀ p err, (s.serve (.bind p)).1 = .bound (.error err) →
        (err = .alreadyBound ∨ err = .addressSpaceExceeded p.size (c.addressSpace - 1)) ∧ (s.serve (.bind p)).2 = s ∧
        (s.isBound = false → ∀ q, q.size ≤ c.addressSpace - 1 →
          ((s.serve (.bind p)).2.serve (.bind q)).1 = .bound (.ok ()))) ∧
      ∀ turns, s.serve (.execute turns) = (.executed (Engine.execute ⟨c, bound⟩ turns), s) ∧
        s.serve (.run turns) = (.ran (Engine.run ⟨c, bound⟩ turns), s)) ∧
    ∀ n ≤ c.addressSpace - 1, ∃ s, withRoom n c = .ok s ∧ ∀ p,
      (p.size ≤ c.addressSpace - 1 → ∃ t, s.serve (.bind p) = (.bound (.ok ()), t) ∧ ofProgram p c = .ok t) ∧
      (c.addressSpace - 1 < p.size → ∃ err, s.serve (.bind p) = (.bound (.error err), s) ∧ ofProgram p c = .error err) := by
  refine ⟨fun n err => withRoom_eq_error_iff, fun p err => ofProgram_eq_error_iff, ?_, ?_⟩
  · intro bound s hs
    obtain ⟨rfl, hbound, hinstructions, hsize⟩ := hs.holds
    refine ⟨rfl, ?_, ?_, fun p => answer_bind_eq_ok_iff, fun p => answer_bind_eq_alreadyBound_iff, ?_, ?_⟩
    · intro hfree
      obtain rfl := hs.holds.bound_eq_none hfree
      exact ⟨rfl, hinstructions⟩
    · intro hmark
      rw [hmark] at hbound
      obtain ⟨p, rfl⟩ := Option.isSome_iff_exists.mp hbound.symm
      exact ⟨p, rfl, hinstructions, hsize p rfl⟩
    · intro p err herr
      obtain ⟨hsame, hcause⟩ := of_answer_bind_eq_error herr
      refine ⟨hcause, hsame, fun hfree q hq => ?_⟩
      rw [hsame]
      exact answer_bind_eq_ok_iff.mpr ⟨hfree, hq⟩
    · intro turns
      rw [serve, serve, hs.holds.engine_eq]
      exact ⟨rfl, rfl⟩
  · intro n hn
    refine ⟨_, withRoom_of_le hn, fun p => ⟨fun hle => ?_, fun hlt => ?_⟩⟩
    · exact ⟨_, serve_bind_of_le rfl hle, ofProgram_of_le hle⟩
    · exact ⟨_, serve_bind_of_lt rfl hlt, ofProgram_of_lt hlt⟩

/-- Room for no instruction, where a program may have two: three are refused, and then two can be bound, which run; after them
not even none can be bound. -/
theorem bound_once_after_refusal :
    let c : Config := { stackSize := 4, addressSpace := 3 }
    let long := Program.ofList [⟨.lit, 0, 1⟩, ⟨.lit, 0, 2⟩, ⟨.jmp, 0, 0⟩]
    let short := Program.ofList [⟨.lit, 0, 5⟩, ⟨.opr, -3, 0⟩]
    ∃ s t, withRoom 0 c = .ok s ∧ s.serve (.bind long) = (.bound (.error (.addressSpaceExceeded 3 2)), s) ∧
      s.serve (.bind short) = (.bound (.ok ()), t) ∧ ofProgram short c = .ok t ∧ Reached c (some short) t ∧
      t.instructions = short.instructions ∧ (t.serve (.bind {})).1 = .bound (.error .alreadyBound) ∧
      t.serve (.run 2) = (.ran (some (.ok 5)), t) := by
  intro c long short
  obtain ⟨-, hrefuses, hreached, hroom⟩ := bound_once c
  obtain ⟨s, hs, hthen⟩ := hroom 0 (by decide)
  obtain ⟨err, hrefused, hlong⟩ := (hthen long).2 (by decide)
  obtain ⟨-, rfl⟩ := (hrefuses long err).mp hlong
  obtain ⟨t, hbound, hshort⟩ := (hthen short).1 (by decide)
  have hafter : Reached c none s := by simpa [hrefused, Call.bound?] using (Reached.room hs).call (.bind long)
  have ht : Reached c (some short) t := by simpa [hbound, Call.bound?] using hafter.call (.bind short)
  obtain ⟨-, hfree, hholds, -, hagain, -, hrun⟩ := hreached (some short) t ht
  have hmark : t.isBound = true := by
    cases h : t.isBound with
    | true => rfl
    | false => cases (hfree h).1
  obtain ⟨p, hp, hinstructions, -⟩ := hholds hmark
  cases hp
  have hfive : Engine.run ⟨c, some short⟩ 2 = some (.ok 5) := by
    dsimp only [c, short]
    rfl
  exact ⟨s, t, hs, hrefused, hbound, hshort, ht, hinstructions, (hagain {}).mpr hmark, hfive ▸ (hrun 2).2⟩

end Session

end PMachine

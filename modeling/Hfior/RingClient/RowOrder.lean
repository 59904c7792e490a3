import Hfior.RingClient.FrameRows

/-!
# The order of the operations in a frame

The rest of a frame is a suffix of its program, so what the program says about
the order of its operations, the rest of a frame says as well: a drain is
followed by a take, a take by the counter of its action and by the read of the
local tail, and the observation is made once, behind all of these.
-/

namespace Hfior

/-- Behind every operation with `p` there is one with `q`. -/
def Followed (p q : RowOp → Bool) : List RowOp → Prop
  | [] => True
  | op :: rest => (p op = true → rest.any q = true) ∧ Followed p q rest

namespace Followed

variable {p q : RowOp → Bool} {l l' : List RowOp}

theorem suffix (h : Followed p q l) (hsuffix : l' <:+ l) : Followed p q l' := by
  induction l with
  | nil =>
    rw [List.suffix_nil.1 hsuffix]
    trivial
  | cons op l ih =>
    rcases List.suffix_cons_iff.1 hsuffix with rfl | hsuffix
    · exact h
    · exact ih h.2 hsuffix

/-- In front of a list that has an operation with `q` there may be anything. -/
theorem append (h : Followed p q l) (hany : l.any q = true) (front : List RowOp) :
    Followed p q (front ++ l) := by
  induction front with
  | nil => exact h
  | cons op front ih =>
    refine ⟨fun _ => ?_, ih⟩
    show (front ++ l).any q = true
    rw [List.any_append, hany, Bool.or_true]

/-- In front of a list, a list without an operation with `p`. -/
theorem append_of_none (h : Followed p q l) {front : List RowOp} (hnone : front.any p = false) :
    Followed p q (front ++ l) := by
  induction front with
  | nil => exact h
  | cons op front ih =>
    rw [List.any_cons, Bool.or_eq_false_iff] at hnone
    refine ⟨fun hop => ?_, ih hnone.2⟩
    rw [hnone.1] at hop
    cases hop

/-- Behind a list without an operation with `p`. -/
theorem of_none (h : l.any p = false) : Followed p q l := by
  induction l with
  | nil => trivial
  | cons op l ih =>
    rw [List.any_cons, Bool.or_eq_false_iff] at h
    refine ⟨fun hop => ?_, ih h.2⟩
    rw [h.1] at hop
    cases hop

/-- Who has an operation with `p` has one with `q`. -/
theorem any (h : Followed p q l) (hany : l.any p = true) : l.any q = true := by
  induction l with
  | nil => cases hany
  | cons op l ih =>
    rw [List.any_cons, Bool.or_eq_true] at hany ⊢
    rcases hany with hop | hany
    · exact .inr (h.1 hop)
    · exact .inr (ih h.2 hany)

/-- Behind an operation with `p` there is the one that follows it. -/
theorem mem {x y : RowOp}
    (h : Followed p (· == x) l) (hsuffix : y :: l' <:+ l) (hp : p y = true) : x ∈ l' := by
  obtain ⟨op, hop, heq⟩ := List.any_eq_true.1 ((h.suffix hsuffix).1 hp)
  rw [beq_iff_eq] at heq
  exact heq ▸ hop

end Followed

/-! ## Suffixes -/

section
variable {α : Type*} {x : α} {a b l : List α}

/-- A suffix without an entry lies behind it. -/
theorem suffix_of_not_mem (h : l <:+ a ++ x :: b) (hx : x ∉ l) : l <:+ b := by
  rcases List.suffix_or_suffix_of_suffix h (List.suffix_append a (x :: b)) with hl | hl
  · rcases List.suffix_cons_iff.1 hl with rfl | hl
    · exact absurd List.mem_cons_self hx
    · exact hl
  · exact absurd (hl.subset List.mem_cons_self) hx

/-- Behind the only occurrence of an entry. -/
theorem eq_of_suffix_cons (h : x :: l <:+ a ++ x :: b) (ha : x ∉ a) (hb : x ∉ b) : l = b := by
  rcases List.suffix_or_suffix_of_suffix h (List.suffix_append a (x :: b)) with hl | hl
  · rcases List.suffix_cons_iff.1 hl with heq | hl
    · exact (List.cons.inj heq).2
    · exact absurd (hl.subset List.mem_cons_self) hb
  · -- Otherwise the entry would occur in front as well.
    obtain ⟨front, hfront⟩ := h
    obtain ⟨mid, hmid⟩ := hl
    cases mid with
    | nil => exact ((List.cons.inj hmid).2).symm
    | cons y mid =>
      obtain ⟨rfl, hmid⟩ := List.cons.inj hmid
      have hmid : mid ++ y :: b = l := hmid
      have ha' : a = front ++ y :: mid := by
        rw [← hmid] at hfront
        have hsplit : (front ++ y :: mid) ++ y :: b = a ++ y :: b := by
          rw [← hfront]
          simp
        exact (List.append_cancel_right hsplit).symm
      rw [ha'] at ha
      exact absurd (List.mem_append_right _ List.mem_cons_self) ha

end

/-! ## The operations -/

def RowOp.isDrain : RowOp → Bool
  | .drain .. => true
  | _ => false

/-- A drain that only the eager policy makes. -/
def RowOp.isShadow : RowOp → Bool
  | .drain _ shadow _ => shadow
  | _ => false

def RowOp.isTake : RowOp → Bool
  | .take _ => true
  | _ => false

section
variable (config : FrameConfig) {op : OwnOp} {p q : RowOp → Bool}

theorem any_ackPostUse (h : p .ack = false) : (ackPostUse config).any p = false := by
  unfold ackPostUse
  split
  · simp [h]
  · rfl

theorem any_ackPostFrame (h : p .ack = false) : (ackPostFrame config).any p = false := by
  unfold ackPostFrame
  split
  · simp [h]
  · rfl

theorem own_mem_checks : .own op ∈ checks config ↔ op = .clock .legacy := by
  simp [checks, List.mem_replicate]

theorem own_not_mem_finalRechecks : .own op ∉ finalRechecks config := by
  simp [finalRechecks]

theorem own_not_mem_ackPostUse : .own op ∉ ackPostUse config := by
  unfold ackPostUse
  split <;> simp

theorem own_not_mem_ackPostFrame : .own op ∉ ackPostFrame config := by
  unfold ackPostFrame
  split <;> simp

/-- The operations behind the branches of `run_frame_policy`. -/
theorem any_rowEnd (hack : p .ack = false) (hown : ∀ op, p (.own op) = false) :
    (rowFix ++ .own .readLocalTail :: rowEnd config).any p = false := by
  simp [rowFix, rowEnd, any_ackPostFrame config hack, hown]

/-- Each recheck takes what it has drained. -/
theorem followed_finalRechecks {l : List RowOp} (h : Followed RowOp.isDrain RowOp.isTake l) :
    Followed RowOp.isDrain RowOp.isTake (finalRechecks config ++ l) := by
  unfold finalRechecks
  generalize List.range config.finalRechecks.toNat = rounds
  induction rounds with
  | nil => exact h
  | cons round rounds ih =>
    rw [List.flatMap_cons, List.append_assoc]
    exact ⟨fun _ => rfl, fun hop => (by cases hop), ih⟩

end

/-! ## The order -/

section
variable (config : FrameConfig) {policy : ClientPolicy} {op : OwnOp}

/-- Every drain of a ring policy is followed by a take. -/
theorem followed_take (hpolicy : policy ≠ .eagerThread) :
    Followed RowOp.isDrain RowOp.isTake (rowProgram config policy) := by
  have hend : Followed RowOp.isDrain RowOp.isTake
      (rowFix ++ .own .readLocalTail :: rowEnd config) :=
    .of_none (any_rowEnd config rfl fun _ => rfl)
  have huse := hend.append_of_none (any_ackPostUse config (p := RowOp.isDrain) rfl)
  cases policy with
  | eagerThread => exact absurd rfl hpolicy
  | hfiorCriticalAck | hfiorTwoStage =>
    simp only [rowProgram, rowBody, List.append_assoc, List.cons_append, List.nil_append]
    simp [Followed, RowOp.isDrain, RowOp.isTake, huse]
  | hfiorLate | hfiorSpin =>
    have hstamp : Followed RowOp.isDrain RowOp.isTake
        (.own (.clock .use) :: (rowFix ++ .own .readLocalTail :: rowEnd config)) :=
      ⟨fun hop => (by cases hop), hend⟩
    have hbehind := hstamp.append_of_none (any_ackPostUse config (p := RowOp.isDrain) rfl)
    simp only [rowProgram, rowBody, List.append_assoc, List.cons_append, List.nil_append]
    simp [Followed, RowOp.isDrain, RowOp.isTake, hbehind]
  | hfiorMulti =>
    simp only [rowProgram, rowBody, List.append_assoc, List.cons_append, List.nil_append]
    refine Followed.append ?_ (by simp [RowOp.isTake]) _
    split <;> simp [Followed, RowOp.isDrain, RowOp.isTake, huse]
  | hfiorLateLatch =>
    have hlate : Followed RowOp.isDrain RowOp.isTake
        (.own (.clock .latchEnd) :: .own .actLate :: .own .loadFinalHead :: .own (.clock .use) ::
          (ackPostUse config ++ (rowFix ++ .own .readLocalTail :: rowEnd config))) := by
      simp [Followed, RowOp.isDrain, huse]
    have hrechecks := followed_finalRechecks config hlate
    simp only [rowProgram, rowBody, List.append_assoc, List.cons_append, List.nil_append]
    refine Followed.append ?_ (by simp [RowOp.isTake]) _
    simp [Followed, RowOp.isDrain, RowOp.isTake, hrechecks]

/-- Every take is followed by the read of the local tail. -/
theorem followed_readLocalTail :
    Followed RowOp.isTake (· == .own .readLocalTail) (rowProgram config policy) := by
  have hend : Followed RowOp.isTake (· == .own .readLocalTail)
      (rowFix ++ .own .readLocalTail :: rowEnd config) :=
    .of_none (any_rowEnd config rfl fun _ => rfl)
  rw [rowProgram, List.append_assoc]
  exact hend.append (by simp) _

/-- In front of the late latch, the head is loaded in front of a drain. -/
theorem followed_drain_lateLatch :
    Followed (· == .own .loadInitialHead) RowOp.isDrain (rowProgram config .hfiorLateLatch) := by
  have hnone : (finalRechecks config ++ .own (.clock .latchEnd) :: .own .actLate ::
      .own .loadFinalHead :: .own (.clock .use) :: (ackPostUse config ++
        (rowFix ++ .own .readLocalTail :: rowEnd config))).any
          (· == .own .loadInitialHead) = false := by
    rw [List.any_eq_false]
    intro op hop heq
    rw [beq_iff_eq] at heq
    rw [heq] at hop
    simp [own_not_mem_finalRechecks, own_not_mem_ackPostUse, rowFix, rowEnd,
      own_not_mem_ackPostFrame] at hop
  simp only [rowProgram, rowBody, List.append_assoc, List.cons_append, List.nil_append]
  refine Followed.append ?_ (by simp [RowOp.isDrain]) _
  simp [Followed, RowOp.isDrain, Followed.of_none hnone]

/-- The first take is followed by the counter of its action. -/
theorem followed_act (hpolicy : policy ≠ .eagerThread) :
    Followed (· == .take false) (· == .own .act) (rowProgram config policy) := by
  have hend : Followed (· == RowOp.take false) (· == .own .act)
      (rowFix ++ .own .readLocalTail :: rowEnd config) :=
    .of_none (any_rowEnd config rfl fun _ => rfl)
  have huse := hend.append_of_none (any_ackPostUse config (p := (· == RowOp.take false)) rfl)
  cases policy with
  | eagerThread => exact absurd rfl hpolicy
  | hfiorCriticalAck | hfiorTwoStage =>
    simp only [rowProgram, rowBody, List.append_assoc, List.cons_append, List.nil_append]
    simp [Followed, huse]
  | hfiorLate | hfiorSpin =>
    have hstamp : Followed (· == RowOp.take false) (· == .own .act)
        (.own (.clock .use) :: (rowFix ++ .own .readLocalTail :: rowEnd config)) :=
      ⟨fun hop => (by cases hop), hend⟩
    have hbehind :=
      hstamp.append_of_none (any_ackPostUse config (p := (· == RowOp.take false)) rfl)
    simp only [rowProgram, rowBody, List.append_assoc, List.cons_append, List.nil_append]
    simp [Followed, hbehind]
  | hfiorMulti =>
    simp only [rowProgram, rowBody, List.append_assoc, List.cons_append, List.nil_append]
    refine Followed.append ?_ (by simp) _
    split <;> simp [Followed, huse]
  | hfiorLateLatch =>
    have hrechecks : (finalRechecks config).any (· == RowOp.take false) = false := by
      rw [List.any_eq_false]
      intro op hop heq
      rw [beq_iff_eq] at heq
      rw [heq] at hop
      simp [finalRechecks] at hop
    have hlate : Followed (· == RowOp.take false) (· == .own .act)
        (.own (.clock .latchEnd) :: .own .actLate :: .own .loadFinalHead :: .own (.clock .use) ::
          (ackPostUse config ++ (rowFix ++ .own .readLocalTail :: rowEnd config))) := by
      simp [Followed, huse]
    have hbehind := hlate.append_of_none hrechecks
    simp only [rowProgram, rowBody, List.append_assoc, List.cons_append, List.nil_append]
    refine Followed.append ?_ (by simp) _
    simp [Followed, hbehind]

/-- The second take of the two stages is followed by the counter of its
action. -/
theorem followed_actSecond :
    Followed (· == .take true) (· == .own .actSecond) (rowProgram config .hfiorTwoStage) := by
  have hend : Followed (· == RowOp.take true) (· == .own .actSecond)
      (rowFix ++ .own .readLocalTail :: rowEnd config) :=
    .of_none (any_rowEnd config rfl fun _ => rfl)
  have huse := hend.append_of_none (any_ackPostUse config (p := (· == RowOp.take true)) rfl)
  simp only [rowProgram, rowBody, List.append_assoc, List.cons_append, List.nil_append]
  simp [Followed, huse]

/-- Every take of late records is followed by the counters of the late latch. -/
theorem followed_actLate :
    Followed (· == .take true) (· == .own .actLate) (rowProgram config .hfiorLateLatch) := by
  have hend : Followed (· == RowOp.take true) (· == .own .actLate)
      (rowFix ++ .own .readLocalTail :: rowEnd config) :=
    .of_none (any_rowEnd config rfl fun _ => rfl)
  have huse := hend.append_of_none (any_ackPostUse config (p := (· == RowOp.take true)) rfl)
  simp only [rowProgram, rowBody, List.append_assoc, List.cons_append, List.nil_append]
  refine Followed.append ?_ (by simp) _
  have hlate : Followed (· == RowOp.take true) (· == .own .actLate)
      (.own (.clock .latchEnd) :: .own .actLate :: .own .loadFinalHead :: .own (.clock .use) ::
        (ackPostUse config ++ (rowFix ++ .own .readLocalTail :: rowEnd config))) := by
    simp [Followed, huse]
  simp [Followed, hlate.append (by simp) (finalRechecks config)]

/-- A ring policy makes no shadow drain. -/
theorem any_isShadow (hpolicy : policy ≠ .eagerThread) :
    (rowProgram config policy).any RowOp.isShadow = false := by
  have hend := any_rowEnd config (p := RowOp.isShadow) rfl fun _ => rfl
  have huse := any_ackPostUse config (p := RowOp.isShadow) rfl
  have hchecks : (checks config).any RowOp.isShadow = false := by
    simp [checks, RowOp.isShadow]
  have hrechecks : (finalRechecks config).any RowOp.isShadow = false := by
    simp [finalRechecks, RowOp.isShadow]
  rw [rowProgram, List.append_assoc, List.any_append, hend, Bool.or_false]
  cases policy with
  | eagerThread => exact absurd rfl hpolicy
  | hfiorMulti =>
    simp only [rowBody, List.any_append, huse, hchecks]
    split <;> simp [RowOp.isShadow]
  | hfiorLateLatch =>
    simp only [rowBody, List.any_append, huse, hchecks, hrechecks]
    simp [RowOp.isShadow]
  | _ =>
    simp only [rowBody, List.any_append, huse]
    simp [RowOp.isShadow]

/-! ### What happens once -/

variable (policy) in
/-- The program around its observation. -/
theorem rowProgram_observe : ∃ front, rowProgram config policy =
    front ++ .own .observe :: (ackPostFrame config ++ [.own .writeFrame]) ∧
      .own .observe ∉ front ∧ .own .writeFrame ∉ front := by
  refine ⟨rowBody config policy ++ rowFix ++
    [.own .readLocalTail, .own .readChecks, .own .loadDepthHead, .own .loadDepthTail], ?_, ?_, ?_⟩
  · simp [rowProgram, rowEnd]
  all_goals
    cases policy with
    | hfiorMulti =>
      simp only [rowBody]
      split <;> simp [rowFix, own_mem_checks, own_not_mem_ackPostUse]
    | _ =>
      simp [rowBody, rowFix, own_mem_checks, own_not_mem_ackPostUse, own_not_mem_finalRechecks]

/-- Each counter of actions is passed at most once. -/
theorem count_act_le (hop : op = .act ∨ op = .actSecond ∨ op = .actLate) :
    (rowProgram config policy).count (.own op) ≤ 1 := by
  have huse : (ackPostUse config).count (.own op) = 0 :=
    List.count_eq_zero.2 (own_not_mem_ackPostUse config)
  have hframe : (ackPostFrame config).count (.own op) = 0 :=
    List.count_eq_zero.2 (own_not_mem_ackPostFrame config)
  have hrechecks : (finalRechecks config).count (.own op) = 0 :=
    List.count_eq_zero.2 (own_not_mem_finalRechecks config)
  have hchecks : (checks config).count (.own op) = 0 := by
    rw [List.count_eq_zero, own_mem_checks]
    rcases hop with rfl | rfl | rfl <;> exact OwnOp.noConfusion
  have hend : (rowFix ++ .own .readLocalTail :: rowEnd config).count (.own op) = 0 := by
    rw [rowFix, rowEnd, List.count_eq_zero]
    rcases hop with rfl | rfl | rfl <;> simp [own_not_mem_ackPostFrame]
  rw [rowProgram, List.append_assoc, List.count_append, hend, Nat.add_zero]
  cases policy with
  | hfiorMulti =>
    simp only [rowBody, List.count_append, huse, hchecks]
    rcases hop with rfl | rfl | rfl <;> split <;> simp
  | _ =>
    simp only [rowBody, List.count_append, huse, hchecks, hrechecks]
    rcases hop with rfl | rfl | rfl <;> simp

theorem not_mem_of_count_le {x : RowOp} {rest l : List RowOp} (hcount : l.count x ≤ 1)
    (hsuffix : x :: rest <:+ l) : x ∉ rest := by
  have hle := (hsuffix.sublist.count_le x).trans hcount
  rw [List.count_cons_self] at hle
  exact List.count_eq_zero.1 (by omega)

/-! ### In the rest of a frame -/

variable {config} {rest : List RowOp}

theorem rest_of_observe (h : .own .observe :: rest <:+ rowProgram config policy) :
    rest = ackPostFrame config ++ [.own .writeFrame] := by
  obtain ⟨front, hprogram, hobserve, -⟩ := rowProgram_observe config policy
  rw [hprogram] at h
  exact eq_of_suffix_cons h hobserve (by simp [own_not_mem_ackPostFrame])

theorem rest_of_writeFrame (h : .own .writeFrame :: rest <:+ rowProgram config policy) :
    rest = [] := by
  obtain ⟨front, hprogram, -, hwrite⟩ := rowProgram_observe config policy
  have hsplit : rowProgram config policy =
      (front ++ .own .observe :: ackPostFrame config) ++ .own .writeFrame :: [] := by
    rw [hprogram]
    simp
  rw [hsplit] at h
  exact eq_of_suffix_cons h (by simp [hwrite, own_not_mem_ackPostFrame]) List.not_mem_nil

/-- Behind its observation a frame takes nothing. -/
theorem observe_mem_of_take {late : Bool} (h : .take late :: rest <:+ rowProgram config policy) :
    .own .observe ∈ rest := by
  obtain ⟨front, hprogram, -, -⟩ := rowProgram_observe config policy
  rw [hprogram] at h
  by_contra hrest
  have hsuffix := suffix_of_not_mem h (by simp [hrest])
  have hmem := hsuffix.subset List.mem_cons_self
  rw [ackPostFrame] at hmem
  split at hmem <;> simp at hmem

end

end Hfior

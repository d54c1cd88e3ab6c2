import RobotBench.Proofs.Run.Exec

/-!
# Executions that fail

What is known of the parts of an execution that fails with a fault: a sequence fails in its first
part or after it, and a loop in the test, the body or the pause of one of its rounds, `Exec.Laps`
being the rounds before.
-/

namespace RobotBench

namespace Exec

variable {ω α β : Type}

/-! ## Executions that fail -/

/-- The execution fails with a fault. -/
def Faults (x : Exec ω α) (m : Machine ω) (f : Fault) : Prop := (x m).1 = .error (.fault f)

variable {x : Exec ω α} {m : Machine ω} {f : Fault}

/-- A sequence fails when its first part does. -/
theorem Faults.bind (h : x.Faults m f) (g : α → Exec ω β) : (x >>= g).Faults m f := by
  unfold Faults at h ⊢
  rw [bind_apply]
  rcases hx : x m with ⟨halt | a, m₁⟩
  · rw [hx] at h
    cases h
    rfl
  · rw [hx] at h
    cases h

/-- A sequence fails in its first part or after it. -/
theorem Faults.of_bind {g : α → Exec ω β} (h : (x >>= g).Faults m f) :
    x.Faults m f ∨ ∃ a m₁, x m = (.ok a, m₁) ∧ (g a).Faults m₁ f := by
  unfold Faults at h ⊢
  rw [bind_apply] at h
  rcases hx : x m with ⟨halt | a, m₁⟩
  · rw [hx] at h
    cases h
    exact .inl rfl
  · rw [hx] at h
    exact .inr ⟨a, m₁, rfl, h⟩

theorem not_faults_pure {a : α} : ¬ (pure a : Exec ω α).Faults m f := nofun

/-- What only makes something of a result does not fail, so what gave the result does. -/
theorem Faults.of_bind_pure {g : α → β} (h : (x >>= fun a => pure (g a)).Faults m f) :
    x.Faults m f :=
  h.of_bind.elim id fun ⟨_, _, _, hlater⟩ => absurd hlater not_faults_pure

theorem Faults.under (h : x.Faults m f) (frame : Frame) :
    (x.under frame).Faults m (f.under frame) := by
  unfold Faults at h ⊢
  rw [under_apply, h]
  rfl

theorem Faults.of_under {frame : Frame} (h : (x.under frame).Faults m f) :
    ∃ inner, f = inner.under frame ∧ x.Faults m inner := by
  unfold Faults at h ⊢
  rw [under_apply] at h
  rcases hx : x m with ⟨(inner | _) | a, m₁⟩
  · rw [hx] at h
    cases h
    exact ⟨inner, rfl, rfl⟩
  · rw [hx] at h
    cases h
  · rw [hx] at h
    cases h

theorem Faults.of_between {host : Host ω} {first last : Event}
    (h : (between host first last x).Faults m f) : x.Faults (m.watched host first) f := h

theorem Faults.of_fail {cause : Cause} (h : (fail cause : Exec ω α).Faults m f) :
    f.path = [] := by
  cases h
  rfl

/-- Counting a step fails for want of steps only. -/
theorem Faults.step_limit {setting : Setting ω} (h : (countStep setting).Faults m f) :
    ∃ limit, f = ⟨[], .stepLimit limit⟩ := by
  unfold Faults at h
  rcases count_step_cases setting m with ⟨_, hcount⟩ | ⟨limit, _, _, hcount⟩
  · rw [hcount] at h
    cases h
  · rw [hcount] at h
    cases h
    exact ⟨limit, rfl⟩

theorem Faults.of_step {setting : Setting ω} (h : (countStep setting).Faults m f) :
    f.path = [] := by
  obtain ⟨limit, rfl⟩ := h.step_limit
  rfl

/-! ## Rounds of loops -/

/-- So many rounds of a loop lead from one machine to another: in each the test holds, the body
ends with `next`, and then there is the pause. -/
inductive Laps (test : Exec ω Bool) (body : Exec ω Flow) (pause : Exec ω Unit) :
    Nat → Machine ω → Machine ω → Prop
  | none (m : Machine ω) : Laps test body pause 0 m m
  | round {laps : Nat} {m m₁ m₂ m₃ m' : Machine ω} (htest : test m = (.ok true, m₁))
      (hbody : body m₁ = (.ok .next, m₂)) (hpause : pause m₂ = (.ok (), m₃))
      (hlaps : Laps test body pause laps m₃ m') : Laps test body pause (laps + 1) m m'

/-- After the rounds that were completed a repeated body goes on, with one more round at least. -/
theorem Laps.times_eq {body : Exec ω Flow} {laps count : Nat} {m' : Machine ω}
    (h : Laps (pure true) body (pure ()) laps m m') (hlaps : laps < count) :
    ∃ more, times body count m = times body (more + 1) m' := by
  induction h generalizing count with
  | none m =>
      obtain ⟨more, rfl⟩ := Nat.exists_eq_add_one_of_ne_zero (Nat.ne_of_gt hlaps)
      exact ⟨more, rfl⟩
  | round htest hbody hpause _ ih =>
      cases htest
      cases hpause
      obtain ⟨left, rfl⟩ := Nat.exists_eq_add_one_of_ne_zero (Nat.ne_zero_of_lt hlaps)
      rw [times_succ, bind_ok hbody]
      exact ih (Nat.lt_of_succ_lt_succ hlaps)

/-- After the rounds that were completed a loop goes on, with one more round at least. -/
theorem Laps.whilst_eq {test : Exec ω Bool} {body : Exec ω Flow} {pause : Exec ω Unit}
    {laps rounds : Nat} {m' : Machine ω} (h : Laps test body pause laps m m')
    (hlaps : laps < rounds) :
    ∃ more, whilst test body pause rounds m = whilst test body pause (more + 1) m' := by
  induction h generalizing rounds with
  | none m =>
      obtain ⟨more, rfl⟩ := Nat.exists_eq_add_one_of_ne_zero (Nat.ne_of_gt hlaps)
      exact ⟨more, rfl⟩
  | round htest hbody hpause _ ih =>
      obtain ⟨left, rfl⟩ := Nat.exists_eq_add_one_of_ne_zero (Nat.ne_zero_of_lt hlaps)
      rw [whilst_succ, bind_ok htest]
      simp only
      rw [bind_ok hbody]
      simp only
      rw [bind_ok hpause]
      exact ih (Nat.lt_of_succ_lt_succ hlaps)

/-- A repeated body fails in one of its rounds, after those before it. -/
theorem Faults.of_times {body : Exec ω Flow} {count : Nat} (h : (times body count).Faults m f) :
    ∃ laps m₁, laps < count ∧ Laps (pure true) body (pure ()) laps m m₁ ∧ body.Faults m₁ f := by
  induction count generalizing m with
  | zero => exact absurd h not_faults_pure
  | succ count ih =>
      rw [times_succ] at h
      rcases h.of_bind with hbody | ⟨flow, m₁, hbody, hlater⟩
      · exact ⟨0, m, Nat.succ_pos count, .none m, hbody⟩
      · cases flow with
        | next =>
            obtain ⟨laps, m₂, hlaps, hrounds, hfails⟩ := ih hlater
            exact ⟨laps + 1, m₂, Nat.succ_lt_succ hlaps, .round rfl hbody rfl hrounds, hfails⟩
        | leave => exact absurd hlater not_faults_pure
        | answer value => exact absurd hlater not_faults_pure

/-- A loop fails in the test, the body or the pause of one of its rounds, after those before
it. -/
theorem Faults.of_whilst {test : Exec ω Bool} {body : Exec ω Flow} {pause : Exec ω Unit}
    {rounds : Nat} (h : (whilst test body pause rounds).Faults m f) :
    ∃ laps m₁, laps < rounds ∧ Laps test body pause laps m m₁ ∧
      (test.Faults m₁ f ∨ ∃ m₂, test m₁ = (.ok true, m₂) ∧
        (body.Faults m₂ f ∨ ∃ m₃, body m₂ = (.ok .next, m₃) ∧ pause.Faults m₃ f)) := by
  induction rounds generalizing m with
  | zero => cases h
  | succ rounds ih =>
      rw [whilst_succ] at h
      rcases h.of_bind with htest | ⟨holds, m₁, htest, hheld⟩
      · exact ⟨0, m, Nat.succ_pos rounds, .none m, .inl htest⟩
      cases holds with
      | false => exact absurd hheld not_faults_pure
      | true =>
          rcases hheld.of_bind with hbody | ⟨flow, m₂, hbody, hlater⟩
          · exact ⟨0, m, Nat.succ_pos rounds, .none m, .inr ⟨m₁, htest, .inl hbody⟩⟩
          cases flow with
          | leave => exact absurd hlater not_faults_pure
          | answer value => exact absurd hlater not_faults_pure
          | next =>
              rcases hlater.of_bind with hpause | ⟨done, m₃, hpause, hmore⟩
              · exact ⟨0, m, Nat.succ_pos rounds, .none m,
                  .inr ⟨m₁, htest, .inr ⟨m₂, hbody, hpause⟩⟩⟩
              · obtain ⟨laps, m₄, hlaps, hrounds, hfails⟩ := ih hmore
                exact ⟨laps + 1, m₄, Nat.succ_lt_succ hlaps, .round htest hbody hpause hrounds,
                  hfails⟩

end Exec

end RobotBench

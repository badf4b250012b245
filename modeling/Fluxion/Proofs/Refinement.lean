import Fluxion.Proofs.Jet

/-!
# Refinement of trees

One tree refines another if it means the same wherever the other means something: it has the same
jet, or a jet that moves less, under every assignment.  It may mean something at more places.
Refinement is transitive and every operation respects it, so rewriting a part by a refinement
refines the whole.

The rewriting rules of simplification are collected here as refinements between trees, one
statement for each law of arithmetic that a rule uses.  Several of them hold in one direction only:
`u / u` is one wherever it exists, but one exists everywhere.
-/

namespace Fluxion

namespace Jet

variable {j j' k k' : Jet}

/-- Of two jets one moves wherever one of two jets above them does. -/
theorem moves_or_mono (hj : j ≤ j') (hk : k ≤ k') (h : (j'.moves || k'.moves) = true) :
    (j.moves || k.moves) = true := by
  rw [Bool.or_eq_true] at h ⊢
  exact h.imp hj.2.2 hk.2.2

/-- Sums of jets keep the order; so do the other operations below. -/
theorem add_le (hj : j ≤ j') (hk : k ≤ k') : j + k ≤ j' + k' := by
  refine ⟨?_, ?_, moves_or_mono hj hk⟩
  · rw [add_value, add_value, hj.1, hk.1]
  · rw [add_slope, add_slope, hj.2.1, hk.2.1]

theorem sub_le (hj : j ≤ j') (hk : k ≤ k') : j - k ≤ j' - k' := by
  refine ⟨?_, ?_, moves_or_mono hj hk⟩
  · rw [sub_value, sub_value, hj.1, hk.1]
  · rw [sub_slope, sub_slope, hj.2.1, hk.2.1]

theorem mul_le (hj : j ≤ j') (hk : k ≤ k') : j * k ≤ j' * k' := by
  refine ⟨?_, ?_, moves_or_mono hj hk⟩
  · rw [mul_value, mul_value, hj.1, hk.1]
  · rw [mul_slope, mul_slope, hj.1, hk.1, hj.2.1, hk.2.1]

theorem div_le (hj : j ≤ j') (hk : k ≤ k') : j / k ≤ j' / k' := by
  refine ⟨?_, ?_, moves_or_mono hj hk⟩
  · rw [div_value, div_value, hj.1, hk.1]
  · rw [div_slope, div_slope, hj.1, hk.1, hj.2.1, hk.2.1]

/-- Where a power of jets exists, it exists for jets that move less. -/
theorem PowerDefined.mono (h : j.PowerDefined k) (hj : j ≤ j') (hk : k ≤ k') :
    j'.PowerDefined k' := by
  refine ⟨?_, fun moves => ?_, fun moves => ?_⟩
  · rw [← hj.1, ← hk.1]
    exact h.1
  · rw [← hj.1]
    exact h.2.1 (hk.2.2 moves)
  · rw [← hj.1, ← hk.1]
    exact h.2.2 (hj.2.2 moves)

theorem pow_le (hj : j ≤ j') (hk : k ≤ k') : j.pow k ≤ j'.pow k' := by
  refine ⟨?_, ?_, moves_or_mono hj hk⟩
  · rw [pow_value, pow_value, hj.1, hk.1]
  · rw [pow_slope, pow_slope, hj.1, hk.1, hj.2.1, hk.2.1]

/-- Where a function of a jet exists, it exists for a jet that moves less. -/
theorem CallDefined.mono {f : Elementary} (h : j.CallDefined f) (hj : j ≤ j') :
    j'.CallDefined f := by
  refine ⟨?_, fun moves => ?_⟩
  · rw [← hj.1]
    exact h.1
  · rw [← hj.1]
    exact h.2 (hj.2.2 moves)

theorem call_le (f : Elementary) (hj : j ≤ j') : j.call f ≤ j'.call f := by
  refine ⟨?_, ?_, hj.2.2⟩
  · rw [call_value, call_value, hj.1]
  · rw [call_slope, call_slope, hj.1, hj.2.1]

/-! ### Laws of exponents for jets -/

/-- A product of powers of one base: the exponents add up. -/
theorem pow_add {m n : Jet} (hm : j.PowerDefined m) (hn : j.PowerDefined n) :
    j.PowerDefined (m + n) ∧ j.pow m * j.pow n ≤ j.pow (m + n) := by
  have split := hm.1.rpow_add hn.1
  refine ⟨⟨hm.1.add hn.1, fun moves => ?_, fun moves => ?_⟩, ?_, ?_, ?_⟩
  · rcases (Bool.or_eq_true _ _).mp moves with first | second
    · exact hm.2.1 first
    · exact hn.2.1 second
  · have lower := (hm.2.2 moves).add hn.1
    rwa [show m.value - 1 + n.value = (m + n).value - 1 by rw [add_value]; ring] at lower
  · rw [mul_value, pow_value, pow_value, pow_value, add_value, split]
  · simp only [mul_slope, pow_slope, pow_value, add_value, add_slope, split]
    cases moves : j.moves with
    | false =>
        rw [j.slope_eq_zero moves]
        ring
    | true =>
        -- lowering either exponent by one lowers the sum by one
        have first := (hm.2.2 moves).rpow_add hn.1
        have second := hm.1.rpow_add (hn.2.2 moves)
        rw [show m.value - 1 + n.value = m.value + n.value - 1 by ring] at first
        rw [show m.value + (n.value - 1) = m.value + n.value - 1 by ring] at second
        linear_combination
          (-(m.value * j.slope)) * first + (-(n.value * j.slope)) * second
  · simp only [mul_moves, pow_moves, add_moves, Bool.or_eq_true]
    tauto

/-- A quotient of powers of one base: the exponents are subtracted. -/
theorem pow_sub {m n : Jet} (hm : j.PowerDefined m) (hn : j.PowerDefined n)
    (nonzero : (j.pow n).value ≠ 0) :
    j.PowerDefined (m - n) ∧ j.pow m / j.pow n ≤ j.pow (m - n) := by
  rw [pow_value] at nonzero
  have split := hm.1.rpow_sub hn.1 nonzero
  refine ⟨⟨hm.1.sub hn.1 nonzero, fun moves => ?_, fun moves => ?_⟩, ?_, ?_, ?_⟩
  · rcases (Bool.or_eq_true _ _).mp moves with first | second
    · exact hm.2.1 first
    · exact hn.2.1 second
  · have lower := (hm.2.2 moves).sub hn.1 nonzero
    rwa [show m.value - 1 - n.value = (m - n).value - 1 by rw [sub_value]; ring] at lower
  · rw [div_value, pow_value, pow_value, pow_value, sub_value, split]
  · simp only [div_slope, pow_slope, pow_value, sub_value, sub_slope, split]
    cases moves : j.moves with
    | false =>
        rw [j.slope_eq_zero moves]
        field_simp
        ring
    | true =>
        -- a base at zero would leave the divisor a power with a negative exponent
        have base : j.value ≠ 0 := by
          intro zero
          have lower := hn.2.2 moves
          rw [zero] at nonzero lower
          have exponent : n.value = 0 := by
            by_contra other
            exact nonzero (Real.zero_rpow other)
          rw [exponent, PowerDefined.zero_left_iff] at lower
          norm_num at lower
        rw [Real.rpow_sub_one base, Real.rpow_sub_one base, Real.rpow_sub_one base, split]
        field_simp
        ring
  · simp only [div_moves, pow_moves, sub_moves, Bool.or_eq_true]
    tauto

/-- A whole power of a power: the exponents are multiplied. -/
theorem pow_mul {m : ℝ} {n : ℤ} (inner : j.PowerDefined (still m))
    (outer : (j.pow (still m)).PowerDefined (still n)) :
    j.PowerDefined (still (m * n)) ∧ (j.pow (still m)).pow (still n) ≤ j.pow (still (m * n)) := by
  have merged := inner.1.mul outer.1
  have split : j.value ^ (m * n) = (j.value ^ m) ^ (n : ℝ) := inner.1.rpow_mul
  rcases eq_or_ne j.value 0 with zero | base
  · -- a moving base at zero leaves room for exponents from one on only
    have exponents : j.moves = true → 1 ≤ m ∧ 1 ≤ (n : ℝ) := by
      intro moves
      have first := inner.2.2 moves
      have second := outer.2.2 (by simpa using moves)
      rw [zero, PowerDefined.zero_left_iff] at first
      have large : 1 ≤ m := by simpa using first
      rw [pow_value, zero, still_value, Real.zero_rpow (by linarith),
        PowerDefined.zero_left_iff] at second
      exact ⟨large, by simpa using second⟩
    refine ⟨⟨merged, nofun, fun moves => ?_⟩, ?_, ?_, ?_⟩
    · obtain ⟨large, large'⟩ := exponents moves
      rw [zero, still_value, PowerDefined.zero_left_iff]
      nlinarith
    · exact split.symm
    · cases moves : j.moves with
      | false => simp [j.slope_eq_zero moves]
      | true =>
          obtain ⟨large, large'⟩ := exponents moves
          have nonzero : m ≠ 0 := by linarith
          simp only [pow_slope, pow_value, still_value, still_slope, zero, Real.zero_rpow nonzero]
          rcases large'.eq_or_lt with one | larger
          · simp [← one]
          · have first : (n : ℝ) - 1 ≠ 0 := by linarith
            have second : m * n - 1 ≠ 0 := by nlinarith
            rw [Real.zero_rpow first, Real.zero_rpow second]
            ring
    · simp
  · have power : j.value ^ m ≠ 0 := by
      rcases inner.1 with positive | ⟨zero, -⟩ | ⟨-, i, whole⟩
      · exact (Real.rpow_pos_of_pos positive m).ne'
      · exact absurd zero base
      · rw [still_value] at whole
        rw [whole, Real.rpow_intCast]
        exact zpow_ne_zero i base
    refine ⟨⟨merged, nofun, fun moves => ?_⟩, ?_, ?_, ?_⟩
    · rcases merged with positive | ⟨zero, -⟩ | ⟨negative, i, whole⟩
      · exact .of_pos positive _
      · exact absurd zero base
      · refine .inr (.inr ⟨negative, i - 1, ?_⟩)
        simp only [still_value] at whole ⊢
        rw [whole]
        push_cast
        ring
    · exact split.symm
    · simp only [pow_slope, pow_value, still_value, still_slope]
      rw [Real.rpow_sub_one base, Real.rpow_sub_one base, Real.rpow_sub_one power, split]
      field_simp
      ring
    · simp

end Jet

namespace Expr

/-- A tree that means the same as another one wherever that means something.
It may mean something at more places, which is why it is no equivalence. -/
def Refines (u v : Expr Exact) : Prop :=
  ∀ a j, u.jet a = some j → ∃ k, v.jet a = some k ∧ j ≤ k

namespace Refines

variable {u u' v v' w b m n : Expr Exact} {c d : Exact}

/-- Every tree refines itself. -/
@[refl] theorem refl (u : Expr Exact) : Refines u u := fun _ j h => ⟨j, h, le_rfl⟩

/-- Refinements may follow each other, so a rule may be proved step by step. -/
theorem trans (first : Refines u v) (second : Refines v w) : Refines u w := by
  intro a j h
  obtain ⟨k, hk, jk⟩ := first a j h
  obtain ⟨l, hl, kl⟩ := second a k hk
  exact ⟨l, hl, jk.trans kl⟩

instance : Trans Refines Refines Refines := ⟨trans⟩

/-- A refinement keeps values. -/
theorem valueIn (refines : Refines u v) {a : String → Exact} {y : ℝ}
    (h : u.valueIn a = .real y) : v.valueIn a = .real y := by
  obtain ⟨k, hk, above⟩ := refines _ _ (jet_of_valueIn h)
  rw [Jet.still_le.1 above] at hk
  exact jet_eq_some_still.1 hk

/-! ### Operations respect refinement -/

/-- Refinement passes from operands to sums.  The other nodes follow the
same pattern. -/
theorem add (hu : Refines u u') (hv : Refines v v') : Refines (.add u v) (.add u' v') := by
  intro a r h
  obtain ⟨j, k, hj, hk, rfl⟩ := jet_add.1 h
  obtain ⟨j', hj', jj'⟩ := hu a j hj
  obtain ⟨k', hk', kk'⟩ := hv a k hk
  exact ⟨_, jet_add.2 ⟨j', k', hj', hk', rfl⟩, Jet.add_le jj' kk'⟩

theorem sub (hu : Refines u u') (hv : Refines v v') : Refines (.sub u v) (.sub u' v') := by
  intro a r h
  obtain ⟨j, k, hj, hk, rfl⟩ := jet_sub.1 h
  obtain ⟨j', hj', jj'⟩ := hu a j hj
  obtain ⟨k', hk', kk'⟩ := hv a k hk
  exact ⟨_, jet_sub.2 ⟨j', k', hj', hk', rfl⟩, Jet.sub_le jj' kk'⟩

theorem mul (hu : Refines u u') (hv : Refines v v') : Refines (.mul u v) (.mul u' v') := by
  intro a r h
  obtain ⟨j, k, hj, hk, rfl⟩ := jet_mul.1 h
  obtain ⟨j', hj', jj'⟩ := hu a j hj
  obtain ⟨k', hk', kk'⟩ := hv a k hk
  exact ⟨_, jet_mul.2 ⟨j', k', hj', hk', rfl⟩, Jet.mul_le jj' kk'⟩

theorem div (hu : Refines u u') (hv : Refines v v') : Refines (.div u v) (.div u' v') := by
  intro a r h
  obtain ⟨j, k, hj, hk, nonzero, rfl⟩ := jet_div.1 h
  obtain ⟨j', hj', jj'⟩ := hu a j hj
  obtain ⟨k', hk', kk'⟩ := hv a k hk
  rw [kk'.1] at nonzero
  exact ⟨_, jet_div.2 ⟨j', k', hj', hk', nonzero, rfl⟩, Jet.div_le jj' kk'⟩

theorem pow (hu : Refines u u') (hv : Refines v v') : Refines (.pow u v) (.pow u' v') := by
  intro a r h
  obtain ⟨j, k, hj, hk, defined, rfl⟩ := jet_pow.1 h
  obtain ⟨j', hj', jj'⟩ := hu a j hj
  obtain ⟨k', hk', kk'⟩ := hv a k hk
  exact ⟨_, jet_pow.2 ⟨j', k', hj', hk', defined.mono jj' kk', rfl⟩, Jet.pow_le jj' kk'⟩

theorem call (f : Elementary) (hu : Refines u u') : Refines (.call f u) (.call f u') := by
  intro a r h
  obtain ⟨j, hj, defined, rfl⟩ := jet_call.1 h
  obtain ⟨j', hj', jj'⟩ := hu a j hj
  exact ⟨_, jet_call.2 ⟨j', hj', defined.mono jj', rfl⟩, Jet.call_le f jj'⟩

/-! ### Constants -/

/-- A tree without variables refines to its value. -/
theorem fold (closed : ∀ a, u.jet a = u.jet fun _ => none)
    (value : u.valueIn (fun _ => .undefined) = c) : Refines u (const c) := by
  intro a r h
  rw [closed] at h
  have real : u.valueIn (fun _ => .undefined) = .real r.value :=
    valueIn_of_jet (fun _ _ assigned => by cases assigned) h
  have stands : u.jet (fun _ => none) = some (.still r.value) := jet_of_valueIn real
  rw [h, Option.some.injEq] at stands
  exact ⟨r, jet_const.2 ⟨r.value, value.symm.trans real, stands.symm⟩, le_rfl⟩

/-- Constants may be added.  The laws below are the rules of
simplification, one by one. -/
theorem add_const : Refines (.add (const c) (const d)) (const (c + d)) :=
  fold (fun _ => rfl) rfl

theorem sub_const : Refines (.sub (const c) (const d)) (const (c - d)) :=
  fold (fun _ => rfl) rfl

theorem mul_const : Refines (.mul (const c) (const d)) (const (c * d)) :=
  fold (fun _ => rfl) rfl

theorem div_const : Refines (.div (const c) (const d)) (const (c / d)) :=
  fold (fun _ => rfl) rfl

theorem pow_const : Refines (.pow (const c) (const d)) (const (Scalar.pow c d)) :=
  fold (fun _ => rfl) rfl

theorem call_const (f : Elementary) : Refines (.call f (const c)) (const (f.value c)) :=
  fold (fun _ => rfl) rfl

theorem log_e : Refines (.call .log (named .e)) (int 1) := by
  refine fold (fun _ => rfl) (valueIn_call.2 ⟨_, valueIn_named _, ?_, ?_⟩)
  · exact Real.exp_pos 1
  · simp [Elementary.real, Constant.real]

theorem exp_one : Refines (.call .exp (int 1)) (named .e) := by
  intro a r h
  obtain ⟨j, hj, -, rfl⟩ := jet_call.1 h
  obtain ⟨y, one, rfl⟩ := jet_const.1 hj
  cases one
  exact ⟨_, rfl, by simp [Jet.le_def, Elementary.real, Constant.real]⟩

/-! ### Sums and differences -/

theorem zero_add : Refines (.add (int 0) v) v := by
  intro a r h
  obtain ⟨j, k, hj, hk, rfl⟩ := jet_add.1 h
  obtain ⟨y, zero, rfl⟩ := jet_const.1 hj
  cases zero
  exact ⟨k, hk, by simp [Jet.le_def]⟩

theorem add_zero : Refines (.add u (int 0)) u := by
  intro a r h
  obtain ⟨j, k, hj, hk, rfl⟩ := jet_add.1 h
  obtain ⟨y, zero, rfl⟩ := jet_const.1 hk
  cases zero
  exact ⟨j, hj, by simp [Jet.le_def]⟩

theorem sub_zero : Refines (.sub u (int 0)) u := by
  intro a r h
  obtain ⟨j, k, hj, hk, rfl⟩ := jet_sub.1 h
  obtain ⟨y, zero, rfl⟩ := jet_const.1 hk
  cases zero
  exact ⟨j, hj, by simp [Jet.le_def]⟩

theorem zero_sub : Refines (.sub (int 0) v) (.mul (int (-1)) v) := by
  intro a r h
  obtain ⟨j, k, hj, hk, rfl⟩ := jet_sub.1 h
  obtain ⟨y, zero, rfl⟩ := jet_const.1 hj
  cases zero
  exact ⟨_, jet_mul.2 ⟨_, k, rfl, hk, rfl⟩, by simp [Jet.le_def]⟩

/-- A negative constant may be added with its sign changed. -/
theorem sub_const_neg : Refines (.sub u (const c)) (.add u (const (-c))) := by
  intro a r h
  obtain ⟨j, k, hj, hk, rfl⟩ := jet_sub.1 h
  obtain ⟨y, rfl, rfl⟩ := jet_const.1 hk
  exact ⟨_, jet_add.2 ⟨j, _, hj, rfl, rfl⟩, by simp [Jet.le_def, sub_eq_add_neg]⟩

/-- A difference of equal trees is zero, wherever it has a value. -/
theorem sub_self : Refines (.sub u u) (int 0) := by
  intro a r h
  obtain ⟨j, k, hj, hk, rfl⟩ := jet_sub.1 h
  cases hj.symm.trans hk
  exact ⟨_, rfl, by simp [Jet.le_def]⟩

/-- Coefficients of like terms are added. -/
theorem add_like : Refines (.add (.mul (const c) u) (.mul (const d) u))
    (.mul (const (c + d)) u) := by
  intro a r h
  obtain ⟨j, k, hj, hk, rfl⟩ := jet_add.1 h
  obtain ⟨p, q, hp, hq, rfl⟩ := jet_mul.1 hj
  obtain ⟨p', q', hp', hq', rfl⟩ := jet_mul.1 hk
  obtain ⟨y, rfl, rfl⟩ := jet_const.1 hp
  obtain ⟨z, rfl, rfl⟩ := jet_const.1 hp'
  cases hq.symm.trans hq'
  refine ⟨_, jet_mul.2 ⟨.still (y + z), q, rfl, hq, rfl⟩, ?_, ?_, ?_⟩
  · simp only [Jet.add_value, Jet.mul_value, Jet.still_value]
    ring
  · simp only [Jet.add_slope, Jet.mul_slope, Jet.still_value, Jet.still_slope]
    ring
  · simp

theorem sub_like : Refines (.sub (.mul (const c) u) (.mul (const d) u))
    (.mul (const (c - d)) u) := by
  intro a r h
  obtain ⟨j, k, hj, hk, rfl⟩ := jet_sub.1 h
  obtain ⟨p, q, hp, hq, rfl⟩ := jet_mul.1 hj
  obtain ⟨p', q', hp', hq', rfl⟩ := jet_mul.1 hk
  obtain ⟨y, rfl, rfl⟩ := jet_const.1 hp
  obtain ⟨z, rfl, rfl⟩ := jet_const.1 hp'
  cases hq.symm.trans hq'
  refine ⟨_, jet_mul.2 ⟨.still (y - z), q, rfl, hq, rfl⟩, ?_, ?_, ?_⟩
  · simp only [Jet.sub_value, Jet.mul_value, Jet.still_value]
    ring
  · simp only [Jet.sub_slope, Jet.mul_slope, Jet.still_value, Jet.still_slope]
    ring
  · simp

/-! ### Products -/

/-- Zero absorbs.  The product loses the places where the factor has no value,
so this is a refinement and no equality. -/
theorem zero_mul : Refines (.mul (int 0) v) (int 0) := by
  intro a r h
  obtain ⟨j, k, hj, hk, rfl⟩ := jet_mul.1 h
  obtain ⟨y, zero, rfl⟩ := jet_const.1 hj
  cases zero
  exact ⟨_, rfl, by simp [Jet.le_def]⟩

theorem one_mul : Refines (.mul (int 1) v) v := by
  intro a r h
  obtain ⟨j, k, hj, hk, rfl⟩ := jet_mul.1 h
  obtain ⟨y, one, rfl⟩ := jet_const.1 hj
  cases one
  exact ⟨k, hk, by simp [Jet.le_def]⟩

/-- Every tree has the coefficient one. -/
theorem mul_one_left : Refines u (.mul (int 1) u) := fun _ j h =>
  ⟨_, jet_mul.2 ⟨_, j, rfl, h, rfl⟩, by simp [Jet.le_def]⟩

theorem mul_comm : Refines (.mul u v) (.mul v u) := by
  intro a r h
  obtain ⟨j, k, hj, hk, rfl⟩ := jet_mul.1 h
  refine ⟨_, jet_mul.2 ⟨k, j, hk, hj, rfl⟩, ?_, ?_, ?_⟩
  · simp only [Jet.mul_value]
    ring
  · simp only [Jet.mul_slope]
    ring
  · simp [or_comm]

theorem mul_assoc : Refines (.mul (.mul u v) w) (.mul u (.mul v w)) := by
  intro a r h
  obtain ⟨p, l, hp, hl, rfl⟩ := jet_mul.1 h
  obtain ⟨j, k, hj, hk, rfl⟩ := jet_mul.1 hp
  refine ⟨_, jet_mul.2 ⟨j, _, hj, jet_mul.2 ⟨k, l, hk, hl, rfl⟩, rfl⟩, ?_, ?_, ?_⟩
  · simp only [Jet.mul_value]
    ring
  · simp only [Jet.mul_slope, Jet.mul_value]
    ring
  · simp [or_assoc]

theorem mul_left_comm : Refines (.mul u (.mul v w)) (.mul v (.mul u w)) := by
  calc Refines (.mul u (.mul v w)) (.mul (.mul v w) u) := mul_comm
    Refines _ (.mul v (.mul w u)) := mul_assoc
    Refines _ (.mul v (.mul u w)) := mul (refl v) mul_comm

/-- Two coefficients become one. -/
theorem mul_const_mul : Refines (.mul (const c) (.mul (const d) w)) (.mul (const (c * d)) w) := by
  calc Refines (.mul (const c) (.mul (const d) w)) (.mul (.mul (const d) w) (const c)) := mul_comm
    Refines _ (.mul (const d) (.mul w (const c))) := mul_assoc
    Refines _ (.mul (.mul w (const c)) (const d)) := mul_comm
    Refines _ (.mul w (.mul (const c) (const d))) := mul_assoc
    Refines _ (.mul w (const (c * d))) := mul (refl w) mul_const
    Refines _ (.mul (const (c * d)) w) := mul_comm

/-- A coefficient of a quotient joins the numerator. -/
theorem mul_const_div : Refines (.mul (const c) (.div (const d) w)) (.div (const (c * d)) w) := by
  intro a r h
  obtain ⟨j, q, hj, hq, rfl⟩ := jet_mul.1 h
  obtain ⟨k, l, hk, hl, nonzero, rfl⟩ := jet_div.1 hq
  obtain ⟨y, rfl, rfl⟩ := jet_const.1 hj
  obtain ⟨z, rfl, rfl⟩ := jet_const.1 hk
  refine ⟨_, jet_div.2 ⟨.still (y * z), l, rfl, hl, nonzero, rfl⟩, ?_, ?_, ?_⟩
  · simp only [Jet.mul_value, Jet.div_value, Jet.still_value]
    ring
  · simp only [Jet.mul_slope, Jet.div_slope, Jet.div_value, Jet.still_value, Jet.still_slope]
    ring
  · simp

/-! ### Quotients -/

theorem zero_div : Refines (.div (int 0) v) (int 0) := by
  intro a r h
  obtain ⟨j, k, hj, hk, nonzero, rfl⟩ := jet_div.1 h
  obtain ⟨y, zero, rfl⟩ := jet_const.1 hj
  cases zero
  exact ⟨_, rfl, by simp [Jet.le_def]⟩

theorem div_one : Refines (.div u (int 1)) u := by
  intro a r h
  obtain ⟨j, k, hj, hk, nonzero, rfl⟩ := jet_div.1 h
  obtain ⟨y, one, rfl⟩ := jet_const.1 hk
  cases one
  exact ⟨j, hj, by simp [Jet.le_def]⟩

theorem div_neg_one : Refines (.div u (int (-1))) (.mul (int (-1)) u) := by
  intro a r h
  obtain ⟨j, k, hj, hk, nonzero, rfl⟩ := jet_div.1 h
  obtain ⟨y, one, rfl⟩ := jet_const.1 hk
  cases one
  exact ⟨_, jet_mul.2 ⟨_, j, rfl, hj, rfl⟩, by simp [Jet.le_def, div_neg]⟩

/-- A quotient of equal trees is one, wherever it has a value. -/
theorem div_self : Refines (.div u u) (int 1) := by
  intro a r h
  obtain ⟨j, k, hj, hk, nonzero, rfl⟩ := jet_div.1 h
  cases hj.symm.trans hk
  refine ⟨_, rfl, ?_, ?_, nofun⟩
  · simp [nonzero]
  · simp

/-- A coefficient is divided by a constant. -/
theorem mul_div_const : Refines (.div (.mul (const d) w) (const c)) (.mul (const (d / c)) w) := by
  intro a r h
  obtain ⟨q, k, hq, hk, nonzero, rfl⟩ := jet_div.1 h
  obtain ⟨j, l, hj, hl, rfl⟩ := jet_mul.1 hq
  obtain ⟨y, rfl, rfl⟩ := jet_const.1 hj
  obtain ⟨z, rfl, rfl⟩ := jet_const.1 hk
  rw [Jet.still_value] at nonzero
  have quotient : (Exact.real y / Exact.real z) = .real (y / z) :=
    Exact.div_eq_real.2 ⟨y, z, rfl, rfl, nonzero, rfl⟩
  refine ⟨_, jet_mul.2 ⟨.still (y / z), l, jet_const.2 ⟨_, quotient, rfl⟩, hl, rfl⟩, ?_, ?_, ?_⟩
  · simp only [Jet.mul_value, Jet.div_value, Jet.still_value]
    ring
  · simp only [Jet.mul_slope, Jet.div_slope, Jet.mul_value, Jet.still_value, Jet.still_slope]
    field_simp
    ring
  · simp

/-! ### Powers -/

theorem pow_zero : Refines (.pow u (int 0)) (int 1) := by
  intro a r h
  obtain ⟨j, k, hj, hk, -, rfl⟩ := jet_pow.1 h
  obtain ⟨y, zero, rfl⟩ := jet_const.1 hk
  cases zero
  exact ⟨_, rfl, by simp [Jet.le_def]⟩

theorem pow_one : Refines (.pow u (int 1)) u := by
  intro a r h
  obtain ⟨j, k, hj, hk, -, rfl⟩ := jet_pow.1 h
  obtain ⟨y, one, rfl⟩ := jet_const.1 hk
  cases one
  exact ⟨j, hj, by simp [Jet.le_def]⟩

theorem one_pow : Refines (.pow (int 1) v) (int 1) := by
  intro a r h
  obtain ⟨j, k, hj, hk, -, rfl⟩ := jet_pow.1 h
  obtain ⟨y, one, rfl⟩ := jet_const.1 hj
  cases one
  exact ⟨_, rfl, by simp [Jet.le_def]⟩

/-- Every tree is its own first power. -/
theorem pow_one_right : Refines u (.pow u (int 1)) := by
  intro a j h
  have defined : j.PowerDefined (.still ((1 : ℤ) : ℝ)) := by
    refine ⟨?_, nofun, fun _ => ?_⟩
    · simpa using PowerDefined.one_right j.value
    · simpa using PowerDefined.zero_right j.value
  exact ⟨_, jet_pow.2 ⟨j, _, h, rfl, defined, rfl⟩, by simp [Jet.le_def]⟩

theorem pow_mul_pow : Refines (.mul (.pow b m) (.pow b n)) (.pow b (.add m n)) := by
  intro a r h
  obtain ⟨p, q, hp, hq, rfl⟩ := jet_mul.1 h
  obtain ⟨j, k, hj, hk, defined, rfl⟩ := jet_pow.1 hp
  obtain ⟨j', l, hj', hl, defined', rfl⟩ := jet_pow.1 hq
  cases hj.symm.trans hj'
  obtain ⟨sum, below⟩ := Jet.pow_add defined defined'
  exact ⟨_, jet_pow.2 ⟨j, _, hj, jet_add.2 ⟨k, l, hk, hl, rfl⟩, sum, rfl⟩, below⟩

theorem pow_div_pow : Refines (.div (.pow b m) (.pow b n)) (.pow b (.sub m n)) := by
  intro a r h
  obtain ⟨p, q, hp, hq, nonzero, rfl⟩ := jet_div.1 h
  obtain ⟨j, k, hj, hk, defined, rfl⟩ := jet_pow.1 hp
  obtain ⟨j', l, hj', hl, defined', rfl⟩ := jet_pow.1 hq
  cases hj.symm.trans hj'
  obtain ⟨difference, below⟩ := Jet.pow_sub defined defined' nonzero
  exact ⟨_, jet_pow.2 ⟨j, _, hj, jet_sub.2 ⟨k, l, hk, hl, rfl⟩, difference, rfl⟩, below⟩

/-- A product of equal trees is a square. -/
theorem mul_self : Refines (.mul u u) (.pow u (int 2)) := by
  have exponents : Refines (.add (int 1) (int 1)) (int 2) := by
    refine fold (fun _ => rfl) (valueIn_add.2 ⟨_, _, rfl, rfl, ?_⟩)
    norm_num
  calc Refines (.mul u u) (.mul (.pow u (int 1)) (.pow u (int 1))) :=
        mul pow_one_right pow_one_right
    Refines _ (.pow u (.add (int 1) (int 1))) := pow_mul_pow
    Refines _ (.pow u (int 2)) := pow (refl u) exponents

/-- A whole power of a power with a constant exponent. -/
theorem pow_pow (whole : Scalar.isWhole d = true) :
    Refines (.pow (.pow b (const c)) (const d)) (.pow b (const (c * d))) := by
  obtain ⟨n, rfl⟩ := Exact.isWhole_iff.1 whole
  intro a r h
  obtain ⟨p, k, hp, hk, outer, rfl⟩ := jet_pow.1 h
  obtain ⟨j, l, hj, hl, inner, rfl⟩ := jet_pow.1 hp
  obtain ⟨m, rfl, rfl⟩ := jet_const.1 hl
  cases hk
  obtain ⟨product, below⟩ := Jet.pow_mul inner outer
  exact ⟨_, jet_pow.2 ⟨j, .still (m * n), hj, rfl, product, rfl⟩, below⟩

end Refines

end Expr

end Fluxion

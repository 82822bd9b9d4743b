import RingOverlay.Ring.Id

/-!
# Ring — clockwise distance

`clockwise n a b` is how many places it is from `a` onwards to `b`, on a circle of `n` places
numbered from zero.  The identifier ring is such a circle, and so is the sorted membership of an
overlay: the member after the last is the first.  Everything below follows from the two branches of
the distance, `clockwise_of_le` where `b` lies ahead and `clockwise_of_lt` past the wrap-around: the
distance tells the places apart (`clockwise_left_inj`), and a step ahead shortens it unless it
overshoots (`clockwise_add_of_le`, `clockwise_add_of_lt`).
-/

namespace RingOverlay

/-- The places from `a` onwards to `b`, on a circle of `n` places. -/
def clockwise (n a b : Nat) : Nat := (b + n - a) % n

theorem clockwise_of_le {n a b : Nat} (h : a ≤ b) (hb : b < n) : clockwise n a b = b - a := by
  unfold clockwise
  rw [show b + n - a = b - a + n by omega, Nat.add_mod_right]
  exact Nat.mod_eq_of_lt (by omega)

theorem clockwise_of_lt {n a b : Nat} (h : b < a) (ha : a < n) :
    clockwise n a b = b + n - a := by
  unfold clockwise
  exact Nat.mod_eq_of_lt (by omega)

theorem clockwise_lt {n : Nat} (hn : 0 < n) (a b : Nat) : clockwise n a b < n := Nat.mod_lt _ hn

@[simp] theorem clockwise_self {n a : Nat} (ha : a < n) : clockwise n a a = 0 := by
  rw [clockwise_of_le (Nat.le_refl a) ha, Nat.sub_self]

/-- No two places are equally far from a third. -/
theorem clockwise_left_inj {n a b c : Nat} (ha : a < n) (hb : b < n) (hc : c < n)
    (h : clockwise n a c = clockwise n b c) : a = b := by
  rcases Nat.lt_or_ge c a with h₁ | h₁ <;> rcases Nat.lt_or_ge c b with h₂ | h₂
  · rw [clockwise_of_lt h₁ ha, clockwise_of_lt h₂ hb] at h
    omega
  · rw [clockwise_of_lt h₁ ha, clockwise_of_le h₂ hc] at h
    omega
  · rw [clockwise_of_le h₁ hc, clockwise_of_lt h₂ hb] at h
    omega
  · rw [clockwise_of_le h₁ hc, clockwise_of_le h₂ hc] at h
    omega

/-- A step that does not overshoot `b` brings it closer by as many places. -/
theorem clockwise_add_of_le {n a b o : Nat} (ha : a < n) (hb : b < n) (h : o ≤ clockwise n a b) :
    clockwise n ((a + o) % n) b = clockwise n a b - o := by
  rcases Nat.lt_or_ge b a with hba | hab
  · rw [clockwise_of_lt hba ha] at h ⊢
    rcases Nat.lt_or_ge (a + o) n with ho | ho
    · rw [Nat.mod_eq_of_lt ho, clockwise_of_lt (by omega) ho]
      omega
    -- the step goes past the last place, and `b` is among the first ones
    · rw [Nat.mod_eq_sub_mod ho, Nat.mod_eq_of_lt (by omega), clockwise_of_le (by omega) hb]
      omega
  · rw [clockwise_of_le hab hb] at h ⊢
    rw [Nat.mod_eq_of_lt (by omega), clockwise_of_le (by omega) hb]
    omega

/-- A step that overshoots `b` has it nearly a whole round away. -/
theorem clockwise_add_of_lt {n a b o : Nat} (ha : a < n) (hb : b < n) (ho : o < n)
    (h : clockwise n a b < o) : clockwise n ((a + o) % n) b = clockwise n a b + n - o := by
  rcases Nat.lt_or_ge b a with hba | hab
  · rw [clockwise_of_lt hba ha] at h ⊢
    rw [Nat.mod_eq_sub_mod (by omega), Nat.mod_eq_of_lt (by omega),
      clockwise_of_lt (by omega) (by omega)]
    omega
  · rw [clockwise_of_le hab hb] at h ⊢
    rcases Nat.lt_or_ge (a + o) n with hlt | hge
    · rw [Nat.mod_eq_of_lt hlt, clockwise_of_lt (by omega) hlt]
      omega
    · rw [Nat.mod_eq_sub_mod hge, Nat.mod_eq_of_lt (by omega), clockwise_of_le (by omega) hb]
      omega

/-- It is some way to any other place. -/
theorem clockwise_pos {n a b : Nat} (ha : a < n) (hb : b < n) (h : a ≠ b) : 0 < clockwise n a b := by
  rcases Nat.lt_or_ge b a with hba | hab
  · rw [clockwise_of_lt hba ha]
    omega
  · rw [clockwise_of_le hab hb]
    omega

/-- The place after `a` is one closer to any other place than `a`. -/
theorem clockwise_succ {n a b : Nat} (ha : a < n) (hb : b < n) (h : a ≠ b) :
    clockwise n ((a + 1) % n) b + 1 = clockwise n a b := by
  have hpos := clockwise_pos ha hb h
  rw [clockwise_add_of_le ha hb hpos]
  omega

/-- Two circles on which the same places lie before and behind each other rank the places alike by
their distance to a common goal. -/
theorem clockwise_lt_iff {n m i j d a b c : Nat} (hi : i < n) (hj : j < n) (hd : d < n)
    (ha : a < m) (hb : b < m) (hc : c < m) (hij : j < i ↔ b < a) (hid : d < i ↔ c < a)
    (hjd : d < j ↔ c < b) :
    clockwise n i d < clockwise n j d ↔ clockwise m a c < clockwise m b c := by
  -- the goal lies behind a place of one circle whenever it does on the other
  rcases Nat.lt_or_ge d i with h₁ | h₁ <;> rcases Nat.lt_or_ge d j with h₂ | h₂
  · rw [clockwise_of_lt h₁ hi, clockwise_of_lt h₂ hj, clockwise_of_lt (hid.mp h₁) ha,
      clockwise_of_lt (hjd.mp h₂) hb]
    omega
  · rw [clockwise_of_lt h₁ hi, clockwise_of_le h₂ hd, clockwise_of_lt (hid.mp h₁) ha,
      clockwise_of_le (by omega) hc]
    omega
  · rw [clockwise_of_le h₁ hd, clockwise_of_lt h₂ hj, clockwise_of_le (by omega) hc,
      clockwise_of_lt (hjd.mp h₂) hb]
    omega
  · rw [clockwise_of_le h₁ hd, clockwise_of_le h₂ hd, clockwise_of_le (by omega) hc,
      clockwise_of_le (by omega) hc]
    omega

end RingOverlay

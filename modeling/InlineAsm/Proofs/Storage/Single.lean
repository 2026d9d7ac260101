import InlineAsm.Proofs.Binary.Rounding
import InlineAsm.Proofs.Storage.Layout

/-! Integers in slots of single precision. An integer is rounded twice, to double precision and from there to single
precision. A middle between numbers of single precision is a number of double precision, so the first rounding never
takes an integer across one. It may take it onto one, and then the second rounding no longer knows the side that the
integer was on. -/

namespace InlineAsm

theorem twoPow_add (j k : Nat) : twoPow (j + k) = twoPow j * twoPow k := pow_add 2 j k

namespace Binary

/-- The units of double precision in one of single precision. -/
def refinement : Nat := twoPow (double.scale - single.scale)

/-- `wide` is halfway between `m` and one of its neighbours, but `n` units of double precision are nearer to that
neighbour. -/
def Misled (n wide m : Nat) : Prop :=
  ∃ k, 2 * double.units wide = single.middle k * refinement ∧
    (k + 1 = m ∧ n < double.units wide ∨ k = m ∧ double.units wide < n)

theorem refinement_pos : 0 < refinement := twoPow_pos _

theorem twoPow_scale : twoPow double.scale = twoPow single.scale * refinement := by
  have hscale : double.scale = single.scale + (double.scale - single.scale) := by decide
  conv_lhs => rw [hscale, twoPow_add]
  rw [refinement]

/-- A middle of single precision is a number of double precision. -/
theorem exists_double_middle (k : Nat) : ∃ p, 2 * double.units p = single.middle k * refinement := by
  obtain ⟨e, K, hK, hmiddle⟩ := Format.exists_middle_eq (f := single) k
  obtain ⟨j, hj⟩ : ∃ j, double.scale - single.scale = j + 1 := ⟨924, by decide⟩
  have hwide : 2 * (2 * 2 ^ single.fractionBits) ≤ 2 * 2 ^ double.fractionBits := by decide
  obtain ⟨p, hp⟩ := Format.exists_units_eq (f := double) (e + j) (K := 2 * K + 1) (by omega)
  refine ⟨p, ?_⟩
  rw [hp, hmiddle, refinement, hj, twoPow_eq]
  ring

/-- The pattern of a power of two. -/
theorem Format.units_twoPow (f : Format) {e k : Nat} (h : f.fractionBits + e = k + f.scale) :
    f.units (e * 2 ^ f.fractionBits + 2 ^ f.fractionBits) = twoPow k * twoPow f.scale := by
  rw [f.units_of_significand (by omega) (.inl le_rfl), ← twoPow_add, ← h, twoPow_add]
  rfl

variable {n wide m : Nat}

/-- Rounding to double precision first does no harm unless it ends on a middle of single precision. -/
theorem rounds_narrow_iff (hwide : double.Rounds n 1 wide) (hm : single.Rounds (double.units wide) refinement m) :
    single.Rounds n refinement m ↔ ¬Misled n wide m := by
  have hmono : Monotone double.units := Format.units_strictMono.monotone
  -- rounding to double precision keeps to the side of a middle, since the middle itself is a double
  have hbelow : ∀ k, 2 * n ≤ single.middle k * refinement → 2 * double.units wide ≤ single.middle k * refinement := by
    intro k h
    obtain ⟨p, hp⟩ := exists_double_middle k
    have hle := hmono (hwide.le_of_le (p := p) Nat.one_pos (by omega))
    omega
  have habove : ∀ k, single.middle k * refinement ≤ 2 * n → single.middle k * refinement ≤ 2 * double.units wide := by
    intro k h
    obtain ⟨p, hp⟩ := exists_double_middle k
    have hle := hmono (hwide.ge_of_ge (p := p) Nat.one_pos (by omega))
    omega
  constructor
  · rintro h ⟨k, hk, ⟨rfl, hlt⟩ | ⟨rfl, hlt⟩⟩
    · have := h.lower k rfl
      omega
    · have := h.upper
      omega
  · intro h
    refine ⟨?_, ?_⟩
    · rintro k rfl
      have hn := hbelow k
      have hlower := hm.lower k rfl
      by_contra hc
      exact h ⟨k, by omega, .inl ⟨rfl, by omega⟩⟩
    · have hn := habove m
      have hupper := hm.upper
      by_contra hc
      exact h ⟨m, by omega, .inr ⟨rfl, by omega⟩⟩

end Binary

open Binary (double single refinement Misled)

namespace Double

theorem magnitude_ofMagnitude (b : Bool) {m : Nat} (h : m < double.signWeight) : (ofMagnitude b m).magnitude = m := by
  have hw : 2 ^ 64 = 2 * double.signWeight := by decide
  rw [magnitude, ofMagnitude, BitVec.toNat_ofNat, hw, Nat.mod_mul_left_mod]
  cases b
  · simp [Nat.mod_eq_of_lt h]
  · simp [Nat.mod_eq_of_lt h]

theorem negative_ofMagnitude (b : Bool) {m : Nat} (h : m < double.signWeight) : (ofMagnitude b m).negative = b := by
  have hw : double.signWeight = 2 ^ 63 := by decide
  rw [hw] at h
  rw [negative, ofMagnitude, BitVec.msb_eq_decide, BitVec.toNat_ofNat, hw]
  cases b
  · simp
    omega
  · simp
    omega

/-- The bits of a finite number that is narrowed. -/
theorem toSingle_ofMagnitude (b : Bool) {m : Nat} (h : m < double.infinity) :
    (ofMagnitude b m).toSingle.bits.toNat =
      (if b then 2 ^ 31 else 0) + single.nearest (double.units m) refinement := by
  have hsign : m < double.signWeight := h.trans (by decide)
  have hmag := magnitude_ofMagnitude b hsign
  have hnan : (ofMagnitude b m).isNaN = false := by simp [isNaN, hmag, h.le]
  have hinf : (ofMagnitude b m).isInfinite = false := by simp [isInfinite, hmag, h.ne]
  have hle : single.nearest (double.units m) refinement ≤ single.infinity := Nat.min_le_right _ _
  have hlimit : single.infinity < 2 ^ 31 := by decide
  have hw : single.signWeight = 2 ^ 31 := by decide
  simp only [toSingle, hnan, hinf, hmag, negative_ofMagnitude b hsign, hw]
  unfold refinement at hle ⊢
  generalize single.nearest _ _ = m' at *
  rw [if_neg Bool.false_ne_true, if_neg Bool.false_ne_true, BitVec.toNat_ofNat, Nat.mod_eq_of_lt]
  split_ifs <;> omega

/-- An integer of 128 bits in single precision. Its two magnitudes stay far below infinity. -/
theorem toSingle_ofInt {i : Int} (hi : i.natAbs ≤ 2 ^ 127) : ∃ m,
    (ofInt i).toSingle.bits.toNat = (if i < 0 then 2 ^ 31 else 0) + m ∧
    (ofInt i).magnitude + 1 < double.infinity ∧ m + 1 < single.infinity ∧
    double.Rounds (i.natAbs * twoPow double.scale) 1 (ofInt i).magnitude ∧
    single.Rounds (double.units (ofInt i).magnitude) refinement m := by
  have hlimit := double.units_twoPow (e := 1149) (k := 127) (by decide)
  have hlimit' := single.units_twoPow (e := 253) (k := 127) (by decide)
  have hn : i.natAbs * twoPow double.scale ≤ twoPow 127 * twoPow double.scale := Nat.mul_le_mul_right _ hi
  rw [← hlimit, ← Nat.mul_one (double.units _)] at hn
  obtain ⟨hwide, hle⟩ := Binary.Format.rounds_nearest (by decide) Nat.one_pos (by decide) hn
  have hfinite : double.nearest (i.natAbs * twoPow double.scale) 1 < double.infinity := hle.trans_lt (by decide)
  have hmag := magnitude_ofMagnitude (decide (i < 0)) (hfinite.trans (by decide))
  have hbits := toSingle_ofMagnitude (decide (i < 0)) hfinite
  have hn' := (Binary.Format.units_strictMono (f := double)).monotone hle
  have hnarrow : twoPow 127 * twoPow double.scale = twoPow 127 * twoPow single.scale * refinement := by
    rw [Binary.twoPow_scale, Nat.mul_assoc]
  rw [hlimit, hnarrow, ← hlimit'] at hn'
  obtain ⟨hm, hle'⟩ := Binary.Format.rounds_nearest (by decide) Binary.refinement_pos (by decide) hn'
  simp only [decide_eq_true_eq] at hbits
  rw [ofInt, hmag]
  refine ⟨_, hbits, ?_, ?_, hwide, hm⟩
  · exact (Nat.succ_le_succ hle).trans_lt (by decide)
  · exact (Nat.succ_le_succ hle').trans_lt (by decide)

end Double

namespace Slot

variable {s : Slot}

/-- The bytes of an integer that was stored with single precision. -/
theorem float_bytes (hs : s.type.element = .float) {s' : Slot} {v : Value} {ws : List RangeWarning}
    (h : s.store v = (s', .ok ws)) {k : Nat} {i : Int} (hk : v.leaves[k]? = some (.int i)) :
    (s'.bytes.drop (4 * k)).take 4 = Bytes.ofNat 4 (Double.ofInt i).toSingle.bits.toNat := by
  have htype : s'.type.element = .float := by
    rw [(of_store h).2.2]
    exact hs
  have hencode := (encode_of_leaf h hk).2
  rw [hs, block, htype] at hencode
  exact (Except.ok.inj hencode).symm

/-- A slot of single precision takes all numbers. -/
theorem store_numbers (hs : s.type.element = .float) (hsolid : s.type.Solid) {v : Value}
    (hv : v.Shaped (fun x => ∃ y, x.float? = some y) s.type.axes) : ∃ s', s.store v = (s', .ok []) := by
  have haccepts : ∀ x : Value, (∃ y, x.float? = some y) → s.type.element.check x = .ok none := by
    rintro x ⟨y, hy⟩
    rw [hs]
    cases x with
    | int | float => rfl
    | text | list | tuple | unit => cases hy
  have hshaped : v.Shaped s.type.element.Accepts s.type.axes := hv.imp fun x hx => ⟨_, haccepts x hx⟩
  have hwarnings : v.leaves.filterMap s.type.element.warning? = [] := by
    refine List.filterMap_eq_nil_iff.2 fun x hx => ?_
    have hnumber := hv.of_mem_leaves (fun x h => CType.Accepts.isLeaf ⟨_, haccepts x h⟩) x hx
    rw [CType.warning?, haccepts x hnumber]
    rfl
  obtain ⟨s', hstore, -⟩ := store_of_check hsolid ((check_eq_ok_iff hsolid).2 ⟨hshaped, hwarnings.symm⟩)
  exact ⟨s', hstore⟩

/-- A slot of single precision takes all numbers. An integer of 128 bits is kept with its sign and the number nearest to
the number of double precision that is nearest to it. That is the number nearest to the integer itself if and only if
the first rounding has not misled the second. -/
theorem float_of_integer (hs : s.type.element = .float) :
    (s.type.Solid → ∀ v : Value, v.Shaped (fun x => ∃ y, x.float? = some y) s.type.axes →
      ∃ s', s.store v = (s', .ok [])) ∧
    ∀ v s' ws, s.store v = (s', .ok ws) → ∀ (k : Nat) (i : Int), v.leaves[k]? = some (.int i) →
      -2 ^ 127 ≤ i → i < 2 ^ 127 → ∃ m,
        (s'.bytes.drop (4 * k)).take 4 = Bytes.ofNat 4 ((if i < 0 then 2 ^ 31 else 0) + m) ∧
        double.Nearest (i.natAbs * twoPow double.scale) 1 (Double.ofInt i).magnitude ∧
        single.Nearest (double.units (Double.ofInt i).magnitude) refinement m ∧
        (single.Nearest (i.natAbs * twoPow single.scale) 1 m ↔
          ¬Misled (i.natAbs * twoPow double.scale) (Double.ofInt i).magnitude m) := by
  refine ⟨fun hsolid v hv => store_numbers hs hsolid hv, ?_⟩
  intro v s' ws hstore k i hk hmin hmax
  obtain ⟨m, hbits, hwide, hfinite, hrounds, hm⟩ := Double.toSingle_ofInt (i := i) (by omega)
  refine ⟨m, ?_, ?_, ?_, ?_⟩
  · rw [float_bytes hs hstore hk, hbits]
  · exact (Binary.Format.nearest_iff_rounds Nat.one_pos hwide).2 hrounds
  · exact (Binary.Format.nearest_iff_rounds Binary.refinement_pos hfinite).2 hm
  · rw [← Binary.Format.nearest_mul_iff Binary.refinement_pos, Nat.mul_assoc, ← Binary.twoPow_scale,
      Nat.one_mul, Binary.Format.nearest_iff_rounds Binary.refinement_pos hfinite]
    exact Binary.rounds_narrow_iff hrounds hm

theorem float_of_integer_tie :
    ∃ s', (zeroed (.scalar .float)).store (.int (-16777217)) = (s', .ok []) ∧
      ∃ m, s'.bytes.take 4 = Bytes.ofNat 4 (2 ^ 31 + m) ∧ single.Nearest (16777217 * twoPow single.scale) 1 m := by
  obtain ⟨hstores, hbytes⟩ := float_of_integer (s := zeroed (.scalar .float)) rfl
  obtain ⟨s', hstore⟩ := hstores trivial (.int (-16777217)) ⟨_, rfl⟩
  obtain ⟨m, hm, -, -, hnearest⟩ := hbytes _ s' _ hstore 0 (-16777217) rfl (by decide) (by decide)
  refine ⟨s', hstore, m, hm, hnearest.2 ?_⟩
  have hexact : double.units (Double.ofInt (-16777217)).magnitude =
      Int.natAbs (-16777217) * twoPow double.scale := by decide +kernel
  rintro ⟨k, -, ⟨-, hlt⟩ | ⟨-, hlt⟩⟩
  · exact hlt.ne' hexact
  · exact hlt.ne hexact

/-- An integer just above the middle of two neighbours, while its number of double precision is that middle. -/
theorem not_float_nearest :
    ¬∀ (s s' : Slot) (v : Value) (ws : List RangeWarning) (k : Nat) (i : Int),
      s.type.element = .float → s.store v = (s', .ok ws) → v.leaves[k]? = some (.int i) →
      -2 ^ 127 ≤ i → i < 2 ^ 127 → ∃ m,
        (s'.bytes.drop (4 * k)).take 4 = Bytes.ofNat 4 ((if i < 0 then 2 ^ 31 else 0) + m) ∧
        single.Nearest (i.natAbs * twoPow single.scale) 1 m := by
  intro h
  obtain ⟨s', hstore⟩ := store_numbers (s := zeroed (.scalar .float)) rfl trivial
    (v := .int 9007199791611905) ⟨_, rfl⟩
  obtain ⟨m, hm, hfinite, hnearest⟩ := h _ s' _ _ 0 9007199791611905 rfl hstore rfl (by decide) (by decide)
  have hbytes := float_bytes rfl hstore (k := 0) rfl
  have hbits : (Double.ofInt 9007199791611905).toSingle.bits.toNat = 0x5A000000 := by decide +kernel
  have hlimit : single.infinity < 256 ^ 4 := by decide
  have hpattern : m = 0x5A000000 := by
    rw [hbits, hm, if_neg (by decide), Nat.zero_add] at hbytes
    have hnat := congrArg Bytes.toNat hbytes
    rwa [Bytes.toNat_ofNat_of_lt (hfinite.trans hlimit), Bytes.toNat_ofNat_of_lt (by decide)] at hnat
  subst hpattern
  have hcloser := hnearest 0x5A000001 (by decide) (by decide)
  exact absurd hcloser (by decide +kernel)

end Slot

end InlineAsm

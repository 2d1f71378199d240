import Turnery.Geometry.Scalar

/-!
# What is not finite

An infinity or what is no number spreads: arithmetic that has it among its operands never leads back
to a finite double. A finite result thus tells that everything it was computed from is finite.
-/

namespace Turnery.Number

open Float.Model (UnpackedFloat Format)
open Float.Model.UnpackedFloat (Sign)

theorem isFinite_of_pack {u : UnpackedFloat} (h : (Float.Model.pack u).isFinite = true) :
    u.isFinite = true := by
  cases u with
  | notANumber => exact absurd h (by decide)
  | infinity sign => cases sign <;> exact absurd h (by decide)
  | zero => rfl
  | finite => rfl

/-- Infinities meet in an infinity or in what is no number. -/
theorem isFinite_infinity_or_notANumber (c : Prop) [Decidable c] (sign : Sign) :
    (if c then UnpackedFloat.infinity sign else .notANumber).isFinite = false := by
  split <;> rfl

theorem isFinite_of_unpacked_add {spec : Format} {u v : UnpackedFloat}
    (h : (u.add spec v).isFinite = true) :
    u.isFinite = true ∧ v.isFinite = true := by
  cases u <;> cases v <;>
    first
    | exact ⟨rfl, rfl⟩
    | exact absurd h Bool.false_ne_true
    | exact absurd ((isFinite_infinity_or_notANumber _ _).symm.trans h) Bool.false_ne_true

theorem isFinite_of_unpacked_sub {spec : Format} {u v : UnpackedFloat}
    (h : (u.sub spec v).isFinite = true) :
    u.isFinite = true ∧ v.isFinite = true := by
  cases u <;> cases v <;>
    first
    | exact ⟨rfl, rfl⟩
    | exact absurd h Bool.false_ne_true
    | exact absurd ((isFinite_infinity_or_notANumber _ _).symm.trans h) Bool.false_ne_true

theorem isFinite_of_unpacked_mul {spec : Format} {u v : UnpackedFloat}
    (h : (u.mul spec v).isFinite = true) :
    u.isFinite = true ∧ v.isFinite = true := by
  cases u <;> cases v <;> first | exact ⟨rfl, rfl⟩ | exact absurd h Bool.false_ne_true

variable {x y : Float}

theorem isFinite_of_add (h : (x + y).isFinite = true) : x.isFinite = true ∧ y.isFinite = true :=
  isFinite_of_unpacked_add (isFinite_of_pack h)

theorem isFinite_of_sub (h : (x - y).isFinite = true) : x.isFinite = true ∧ y.isFinite = true :=
  isFinite_of_unpacked_sub (isFinite_of_pack h)

theorem isFinite_of_mul (h : (x * y).isFinite = true) : x.isFinite = true ∧ y.isFinite = true :=
  isFinite_of_unpacked_mul (isFinite_of_pack h)

theorem isNaN_of_isFinite (h : x.isFinite = true) : x.isNaN = false := by
  change x.toModel.unpack.isFinite = true at h
  change x.toModel.unpack.isNaN = false
  cases hx : x.toModel.unpack with
  | notANumber =>
    rw [hx] at h
    exact absurd h Bool.false_ne_true
  | _ => rfl

theorem isInf_of_isFinite (h : x.isFinite = true) : x.isInf = false := by
  change x.toModel.unpack.isFinite = true at h
  change x.toModel.unpack.isInf = false
  cases hx : x.toModel.unpack with
  | infinity =>
    rw [hx] at h
    exact absurd h Bool.false_ne_true
  | _ => rfl

theorem isFinite_of_cosine (h : (cosine x).isFinite = true) : x.isFinite = true := by
  cases hx : x.isFinite with
  | true => rfl
  | false =>
    rw [cosine, hx, if_neg Bool.false_ne_true] at h
    exact absurd h (by decide)

end Turnery.Number

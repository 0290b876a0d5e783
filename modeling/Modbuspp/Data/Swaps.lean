import Modbuspp.Data.Basic

/-!
# What the swaps come to

As they are written, the swaps of a datum put its bytes in the order of its endianness. They come out so
on every machine when no access of theirs is undefined, which is the case for types of 16 bits and for
the endiannesses that keep or reverse the whole value. For the other types a machine may do anything:
some do what is written, some leave the swaps out, and both undo what they have done when they swap again.
-/

namespace Modbuspp

variable {n k : ℕ}

theorem otherWord_lt (i : Fin (2 * k)) : 2 * (k - 1 - i.val / 2) + i.val % 2 < 2 * k := by
  omega

theorem otherByte_lt (i : Fin (2 * k)) : 2 * (i.val / 2) + (1 - i.val % 2) < 2 * k := by
  omega

theorem otherEnd_lt (i : Fin (2 * k)) : 2 * k - 1 - i.val < 2 * k := by
  omega

theorem getElem_swapBytes (input : Vector UInt8 n) (i : ℕ) (inside : i < n) :
    (swapBytes input)[i] = input[n - 1 - i] :=
  Mirror.getElem_loop_half input _ rfl i inside

theorem swapBytes_eq_reverse (input : Vector UInt8 n) : swapBytes input = input.reverse := by
  apply Vector.ext
  intro i inside
  rw [getElem_swapBytes, Vector.getElem_reverse]

namespace Endian

/-- The place, among the bytes `ABCDEFGH` of a value, of the byte that the arrangement puts at a
given place: words and the bytes in each word are in big- or little-endian order. -/
def place (endian : Endian) (i : Fin (2 * k)) : Fin (2 * k) :=
  match endian with
  | .bigBig => i
  | .bigLittle => ⟨2 * (k - 1 - i.val / 2) + i.val % 2, otherWord_lt i⟩
  | .littleBig => ⟨2 * (i.val / 2) + (1 - i.val % 2), otherByte_lt i⟩
  | .littleLittle => ⟨2 * k - 1 - i.val, otherEnd_lt i⟩

theorem place_place (endian : Endian) (i : Fin (2 * k)) : endian.place (endian.place i) = i := by
  cases endian with
  | bigBig => rfl
  | bigLittle =>
      apply Fin.ext
      simp only [place]
      omega
  | littleBig =>
      apply Fin.ext
      simp only [place]
      omega
  | littleLittle =>
      apply Fin.ext
      simp only [place]
      omega

/-- The order in which the endianness puts bytes that are given from the most significant one. -/
def arrange (endian : Endian) (bytes : Vector UInt8 (2 * k)) : Vector UInt8 (2 * k) :=
  match endian with
  | .bigBig => bytes
  | .bigLittle => Mirror.ungroup (Mirror.group bytes).reverse
  | .littleBig => Mirror.ungroup ((Mirror.group bytes).map Vector.reverse)
  | .littleLittle => bytes.reverse

theorem getElem_arrange (endian : Endian) (bytes : Vector UInt8 (2 * k)) (i : ℕ) (inside : i < 2 * k) :
    (endian.arrange bytes)[i] = bytes.get (endian.place ⟨i, inside⟩) := by
  cases endian with
  | bigBig => rfl
  | bigLittle =>
      simp only [arrange, Mirror.getElem_ungroup, Vector.getElem_reverse, Mirror.getElem_group]
      rfl
  | littleBig =>
      simp only [arrange, Mirror.getElem_ungroup, Vector.getElem_map, Vector.getElem_reverse,
        Mirror.getElem_group]
      rfl
  | littleLittle =>
      simp only [arrange, Vector.getElem_reverse]
      rfl

/-- An arrangement is undone by itself. -/
theorem arrange_arrange (endian : Endian) (bytes : Vector UInt8 (2 * k)) :
    endian.arrange (endian.arrange bytes) = bytes := by
  apply Vector.ext
  intro i inside
  calc
    (endian.arrange (endian.arrange bytes))[i] =
        (endian.arrange bytes).get (endian.place ⟨i, inside⟩) :=
      endian.getElem_arrange (endian.arrange bytes) i inside
    _ = bytes.get (endian.place (endian.place ⟨i, inside⟩)) := endian.getElem_arrange bytes _ _
    _ = bytes[i] := by
      rw [place_place]
      rfl

end Endian

theorem getElem_onWords_of_last (f : Vector UInt8 (2 * (n / 2)) → Vector UInt8 (2 * (n / 2)))
    (v : Vector UInt8 n) {i : ℕ} (inside : i < n) (last : ¬i < 2 * (n / 2)) :
    (onWords f v)[i] = v[i] := by
  simp only [onWords, Vector.getElem_ofFn, dif_neg last]
  rfl

/-- A function of the words that is undone by itself is so on the value. -/
theorem onWords_onWords {f : Vector UInt8 (2 * (n / 2)) → Vector UInt8 (2 * (n / 2))}
    (undone : ∀ words, f (f words) = words) (v : Vector UInt8 n) : onWords f (onWords f v) = v := by
  have words_eq : (Vector.ofFn fun i : Fin (2 * (n / 2)) => (onWords f v)[i.val]) =
      f (Vector.ofFn fun i => v[i.val]) := by
    apply Vector.ext
    intro i inside
    simp only [onWords, Vector.getElem_ofFn, dif_pos inside]
  apply Vector.ext
  intro i inside
  rw [onWords, words_eq, undone]
  simp only [Vector.getElem_ofFn]
  split
  · rfl
  · next last => exact getElem_onWords_of_last f v inside last

namespace Endian

/-- The order in which the endianness puts the bytes of a value of any size, given from the most
significant one. -/
def order (endian : Endian) (bytes : Vector UInt8 n) : Vector UInt8 n :=
  match endian with
  | .bigBig => bytes
  | .bigLittle => onWords (arrange .bigLittle) bytes
  | .littleBig => onWords (arrange .littleBig) bytes
  | .littleLittle => bytes.reverse

theorem order_order (endian : Endian) (bytes : Vector UInt8 n) :
    endian.order (endian.order bytes) = bytes := by
  cases endian with
  | bigBig => rfl
  | bigLittle => exact onWords_onWords (arrange_arrange .bigLittle) bytes
  | littleBig => exact onWords_onWords (arrange_arrange .littleBig) bytes
  | littleLittle => exact Vector.reverse_reverse bytes

/-- A value of whole words is put in the order that its registers have. -/
theorem order_eq_arrange (endian : Endian) (bytes : Vector UInt8 (2 * k)) :
    endian.order bytes = endian.arrange bytes := by
  have half : 2 * k / 2 = k := by omega
  apply Vector.ext
  intro i inside
  have whole : i < 2 * (2 * k / 2) := by omega
  cases endian with
  | bigBig => rfl
  | littleLittle => rfl
  | bigLittle =>
      simp only [order, onWords, Vector.getElem_ofFn, getElem_arrange, place, half, dif_pos inside]
      exact Vector.getElem_ofFn _
  | littleBig =>
      simp only [order, onWords, Vector.getElem_ofFn, getElem_arrange, place, dif_pos whole]
      exact Vector.getElem_ofFn _

/-- No swap of the endianness makes an undefined access to a type of so many bytes. -/
def Defined (endian : Endian) (size : ℕ) : Prop :=
  match endian with
  | .bigBig => True
  | .bigLittle => size < 4
  | .littleBig => size ≤ 2
  | .littleLittle => True

instance (endian : Endian) (size : ℕ) : Decidable (endian.Defined size) := by
  unfold Defined
  split <;> infer_instance

/-- Only types of more than 16 bits have undefined swaps. -/
theorem wide_of_not_defined {endian : Endian} {size : ℕ} (undefined : ¬endian.Defined size) : 2 < size := by
  cases endian with
  | bigBig => exact absurd trivial undefined
  | bigLittle =>
      have wide : ¬size < 4 := undefined
      omega
  | littleBig =>
      have wide : ¬size ≤ 2 := undefined
      omega
  | littleLittle => exact absurd trivial undefined

end Endian

/-- The loop over the words puts them in the order from the last one to the first. -/
theorem swapWords_eq_order (input : Vector UInt8 n) : swapWords input = Endian.order .bigLittle input := by
  have arranged : (fun ptr : Vector UInt8 (2 * (n / 2)) =>
      Mirror.ungroup (Mirror.loop (Mirror.group ptr) (n / 4) (by omega))) = Endian.arrange .bigLittle := by
    funext ptr
    apply Vector.ext
    intro i inside
    simp only [Endian.arrange, Mirror.getElem_ungroup, Vector.getElem_reverse]
    rw [Mirror.getElem_loop_half _ _ (by omega)]
  rw [swapWords, arranged, Endian.order]

theorem swapBytesInWords_eq_order (input : Vector UInt8 n) :
    swapBytesInWords input = Endian.order .littleBig input := by
  rw [swapBytesInWords, funext swapBytes_eq_reverse]
  rfl

namespace Host

/-- The swaps of a type of `n` bytes come out as they are written. -/
def Performs (host : Host) (endian : Endian) (n : ℕ) : Prop :=
  ∀ v : Vector UInt8 n, host.swap endian v = endian.order v

/-- The swaps of a type of `n` bytes are undone by themselves. -/
def Undoes (host : Host) (endian : Endian) (n : ℕ) : Prop :=
  ∀ v : Vector UInt8 n, host.swap endian (host.swap endian v) = v

variable {host : Host} {endian : Endian}

theorem performs_of_defined (defined : endian.Defined n) (host : Host) : host.Performs endian n := by
  intro v
  cases endian with
  | bigBig => rfl
  | bigLittle =>
      rw [swap, runSwapWords, if_pos (show n < 4 from defined), swapWords_eq_order]
  | littleBig =>
      rw [swap, runSwapBytesInWords, if_pos (show n ≤ 2 from defined), swapBytesInWords_eq_order]
  | littleLittle => exact swapBytes_eq_reverse v

theorem Performs.undoes (performs : host.Performs endian n) : host.Undoes endian n := by
  intro v
  rw [performs, performs, Endian.order_order]

theorem Performs.swap_eq_arrange (performs : host.Performs endian (2 * k)) (v : Vector UInt8 (2 * k)) :
    Data.swap host endian v = endian.arrange v :=
  (performs v).trans (endian.order_eq_arrange v)

/-- A machine whose compiler does what is written. -/
def asWritten (order : ByteOrder) : Host where
  order := order
  wideSwapWords _ := swapWords
  wideSwapBytesInWords _ := swapBytesInWords

/-- A machine whose compiler leaves the undefined swaps out, as an optimiser does. -/
def optimised (order : ByteOrder) : Host where
  order := order
  wideSwapWords _ v := v
  wideSwapBytesInWords _ v := v

/-- A machine whose compiler never does what is written when that is undefined. -/
def spoiling (order : ByteOrder) : Host where
  order := order
  wideSwapWords _ v := (swapWords v).map (~~~ ·)
  wideSwapBytesInWords _ v := (swapBytesInWords v).map (~~~ ·)

theorem swap_of_not_defined {order : ByteOrder} (v : Vector UInt8 n) (undefined : ¬endian.Defined n) :
    (asWritten order).swap endian v = endian.order v ∧ (optimised order).swap endian v = v ∧
      (spoiling order).swap endian v = (endian.order v).map (~~~ ·) := by
  cases endian with
  | bigBig => exact absurd trivial undefined
  | bigLittle =>
      simp only [swap, runSwapWords, if_neg (show ¬n < 4 from undefined), asWritten, optimised, spoiling,
        swapWords_eq_order, and_self]
  | littleBig =>
      simp only [swap, runSwapBytesInWords, if_neg (show ¬n ≤ 2 from undefined), asWritten, optimised,
        spoiling, swapBytesInWords_eq_order, and_self]
  | littleLittle => exact absurd trivial undefined

theorem asWritten_performs (order : ByteOrder) (endian : Endian) (n : ℕ) :
    (asWritten order).Performs endian n := by
  by_cases defined : endian.Defined n
  · exact performs_of_defined defined _
  · intro v
    exact (swap_of_not_defined v defined).1

theorem complement_ne (byte : UInt8) : ~~~byte ≠ byte := by
  intro same
  have numbers := congrArg UInt8.toNat same
  have size : UInt8.size = 256 := rfl
  rw [UInt8.toNat_not] at numbers
  omega

/-- A machine that spoils what it may gets a swap right only when it has to. -/
theorem spoiling_swap_eq_iff {order : ByteOrder} {v : Vector UInt8 n} :
    (spoiling order).swap endian v = endian.order v ↔ endian.Defined n := by
  constructor
  · intro same
    by_contra undefined
    rw [(swap_of_not_defined v undefined).2.2] at same
    have wide := Endian.wide_of_not_defined undefined
    have first := congrArg (fun bytes => bytes[0]) same
    simp only [Vector.getElem_map] at first
    exact complement_ne _ first
  · intro defined
    exact performs_of_defined defined _ v

end Host

end Modbuspp

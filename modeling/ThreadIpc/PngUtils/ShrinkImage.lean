import ThreadIpc.PngUtils.IntegralSplit
import Mathlib.Algebra.Order.BigOperators.Group.List
import Mathlib.Tactic.IntervalCases

namespace ThreadIpc.PngUtils

open Lib (cut part)

structure Image (width height : Nat) where
  input : List UInt8
  filled : input.length = width * height * 4

section Sums

variable {width height : Nat} (image : Image width height) (pixels : List (Nat × Nat))

def Image.value (channel : Nat) (pixel : Nat × Nat) : Nat :=
  (image.input.getD ((pixel.2 * width + pixel.1) * 4 + channel) 0).toNat

def Image.colourSum (channel : Nat) : Nat :=
  (pixels.map fun pixel => image.value channel pixel * image.value 3 pixel).sum

def Image.alphaSum : Nat := (pixels.map fun pixel => image.value 3 pixel).sum

def Image.average : List Nat :=
  [image.colourSum pixels 0 / (255 * pixels.length), image.colourSum pixels 1 / (255 * pixels.length),
    image.colourSum pixels 2 / (255 * pixels.length), image.alphaSum pixels / pixels.length]

structure Fits : Prop where
  colours : ∀ channel < 3, image.colourSum pixels channel < 2 ^ 32
  alpha : image.alphaSum pixels < 2 ^ 32
  divisor : 255 * pixels.length < 2 ^ 31

def Sums.of : Sums where
  red := UInt32.ofNat (image.colourSum pixels 0)
  green := UInt32.ofNat (image.colourSum pixels 1)
  blue := UInt32.ofNat (image.colourSum pixels 2)
  alpha := UInt32.ofNat (image.alphaSum pixels)

end Sums

/-- An output that there is has been put together without a read outside the input. -/
structure Right (sizes : Sizes) (image : Image sizes.width sizes.height) : Prop where
  once : (sizes.boxes.flatMap Box.pixels).Perm sizes.pixels
  output : (shrinkImage image.input sizes.width sizes.height sizes.newWidth sizes.newHeight).map
    (List.map UInt8.toNat) = some (sizes.boxes.flatMap fun box => image.average box.pixels)
  fits : ∀ box ∈ sizes.boxes, Fits image box.pixels

def Inside (width height : Nat) (pixels : List (Nat × Nat)) : Prop :=
  ∀ pixel ∈ pixels, pixel.1 < width ∧ pixel.2 < height

section Add

variable {width height : Nat} {image : Image width height} {pixels : List (Nat × Nat)}

theorem int_eq {number : Nat} (small : number < 2 ^ 31) : int number = some number := by
  rw [int, Lib.signed_eq (by omega) (by omega), Option.map_some, Int.toNat_natCast]

theorem int_eq_none {number : Nat} (large : 2 ^ 31 ≤ number) : int number = none := by
  rw [int, Option.map_eq_none_iff, Lib.signed_eq_none_iff]
  omega

theorem offset_lt {x y : Nat} (inside : x < width ∧ y < height) :
    (y * width + x) * 4 + 3 < width * height * 4 := by
  have row : (y + 1) * width ≤ height * width := Nat.mul_le_mul_right width inside.2
  rw [Nat.succ_mul, Nat.mul_comm height] at row
  omega

theorem input_eq {offset : Nat} (inside : offset < image.input.length) :
    image.input[offset]? = some (image.input.getD offset 0) := by
  rw [List.getD_eq_getElem?_getD, List.getElem?_eq_getElem inside, Option.getD_some]

theorem colourSum_snoc (channel : Nat) (pixel : Nat × Nat) :
    image.colourSum (pixels ++ [pixel]) channel =
      image.colourSum pixels channel + image.value channel pixel * image.value 3 pixel := by
  simp [Image.colourSum]

theorem alphaSum_snoc (pixel : Nat × Nat) :
    image.alphaSum (pixels ++ [pixel]) = image.alphaSum pixels + image.value 3 pixel := by
  simp [Image.alphaSum]

theorem sums_add {x y : Nat} (inside : x < width ∧ y < height) (small : width * height * 4 ≤ 2 ^ 31) :
    Sums.add image.input width y (.of image pixels) x = some (.of image (pixels ++ [(x, y)])) := by
  have offset := offset_lt inside
  have filled := image.filled
  rw [Sums.add, int_eq (by omega), Option.bind_eq_bind, Option.bind_some]
  rw [input_eq (by omega), input_eq (by omega), input_eq (by omega), input_eq (by omega)]
  simp only [Option.bind_eq_bind, Option.bind_some, Option.pure_def, Sums.of, colourSum_snoc,
    alphaSum_snoc, UInt32.ofNat_add]
  rfl

theorem box_sums {box : Box} (inside : Inside width height box.pixels)
    (small : width * height * 4 ≤ 2 ^ 31) :
    box.rows.numbers.foldlM (fun sums y =>
      box.columns.numbers.foldlM (Sums.add image.input width y) sums) ⟨0, 0, 0, 0⟩ =
      some (.of image box.pixels) := by
  let columns (y : Nat) := box.columns.numbers.map fun x => (x, y)
  have row (front : List (Nat × Nat)) (y : Nat) (member : y ∈ box.rows.numbers) :
      box.columns.numbers.foldlM (Sums.add image.input width y) (.of image front) =
        some (.of image (front ++ columns y)) := by
    rw [show columns y = box.columns.numbers.flatMap fun x => [(x, y)] from List.map_eq_flatMap]
    apply Lib.foldlM_front
    intro front x column
    apply sums_add _ small
    apply inside (x, y)
    exact List.mem_flatMap.mpr ⟨y, member, List.mem_map.mpr ⟨x, column, rfl⟩⟩
  exact @Lib.foldlM_front _ _ _ _ (Sums.of image) columns _ row []

theorem pixels_length (box : Box) :
    box.pixels.length = box.rows.length * box.columns.length := by
  simp [Box.pixels, Span.numbers]

theorem value_le (channel : Nat) (pixel : Nat × Nat) : image.value channel pixel ≤ 255 :=
  Nat.le_of_lt_succ (UInt8.toNat_lt _)

theorem colourSum_le (channel : Nat) :
    image.colourSum pixels channel ≤ 255 * (255 * pixels.length) := by
  have most := List.sum_le_card_nsmul
    (pixels.map fun pixel => image.value channel pixel * image.value 3 pixel) (255 * 255)
  rw [List.forall_mem_map, List.length_map, smul_eq_mul] at most
  have bound := most fun pixel _ => Nat.mul_le_mul (value_le channel pixel) (value_le 3 pixel)
  rw [Image.colourSum]
  omega

theorem alphaSum_le : image.alphaSum pixels ≤ 255 * pixels.length := by
  have most := List.sum_le_card_nsmul (pixels.map fun pixel => image.value 3 pixel) 255
  rw [List.forall_mem_map, List.length_map, smul_eq_mul] at most
  have bound := most fun pixel _ => value_le 3 pixel
  rw [Image.alphaSum]
  omega

theorem quotient_iff {sum divisor : Nat} (most : sum ≤ 255 * divisor) (positive : 0 < divisor)
    (small : divisor < 2 ^ 32) :
    (UInt32.ofNat sum / UInt32.ofNat divisor).toUInt8.toNat = sum / divisor ↔ sum < 2 ^ 32 := by
  have quotient : (UInt32.ofNat sum / UInt32.ofNat divisor).toUInt8.toNat =
      sum % 2 ^ 32 / divisor := by
    have byte : sum % 2 ^ 32 / divisor ≤ 255 :=
      Nat.div_le_of_le_mul ((Nat.mod_le _ _).trans (Nat.mul_comm .. ▸ most))
    rw [UInt32.toNat_toUInt8, UInt32.toNat_div, UInt32.toNat_ofNat', UInt32.toNat_ofNat',
      Nat.mod_eq_of_lt small]
    exact Nat.mod_eq_of_lt (Nat.lt_succ_of_le byte)
  rw [quotient]
  constructor
  · intro same
    by_contra wraps
    have lost : sum % 2 ^ 32 + divisor ≤ sum := by
      have rest := Nat.mod_add_div sum (2 ^ 32)
      have laps : 0 < sum / 2 ^ 32 := Nat.div_pos (Nat.not_lt.mp wraps) (by decide)
      omega
    have less := Nat.div_le_div_right (c := divisor) lost
    rw [Nat.add_div_right _ positive] at less
    omega
  · intro fits
    rw [Nat.mod_eq_of_lt fits]

theorem shrinkBox_eq {box : Box} (inside : Inside width height box.pixels)
    (small : width * height * 4 ≤ 2 ^ 31) (divisor : 255 * box.pixels.length < 2 ^ 31) :
    shrinkBox image.input width box =
      let sums := Sums.of image box.pixels
      let scale := UInt32.ofNat (255 * box.pixels.length)
      some [(sums.red / scale).toUInt8, (sums.green / scale).toUInt8, (sums.blue / scale).toUInt8,
        (sums.alpha / UInt32.ofNat box.pixels.length).toUInt8] := by
  have count : box.pixels.length < 2 ^ 31 := by omega
  rw [shrinkBox, box_sums inside small, ← pixels_length, Nat.mul_comm _ 0xFF, int_eq divisor,
    int_eq count]
  rfl

theorem shrinkBox_length {input : List UInt8} {box : Box} {piece : List UInt8}
    (shrunk : shrinkBox input width box = some piece) : piece.length = 4 := by
  simp only [shrinkBox, Option.bind_eq_bind, Option.bind_eq_some_iff, Option.pure_def,
    Option.some.injEq] at shrunk
  obtain ⟨sums, _, scale, _, count, _, rfl⟩ := shrunk
  rfl

theorem shrinkBox_iff {box : Box} (inside : Inside width height box.pixels)
    (small : width * height * 4 ≤ 2 ^ 31) (nonempty : 0 < box.pixels.length) :
    (shrinkBox image.input width box).map (List.map UInt8.toNat) =
      some (image.average box.pixels) ↔ Fits image box.pixels := by
  by_cases divisor : 255 * box.pixels.length < 2 ^ 31
  · have colour (channel : Nat) := quotient_iff (@colourSum_le _ _ image box.pixels channel)
      (Nat.mul_pos (by decide) nonempty) (by omega)
    have alpha := quotient_iff (@alphaSum_le _ _ image box.pixels) nonempty (by omega)
    rw [shrinkBox_eq inside small divisor]
    simp only [Option.map_some, Sums.of, List.map_cons, List.map_nil, Image.average,
      Option.some.injEq, List.cons.injEq, and_true, colour, alpha]
    constructor
    · rintro ⟨red, green, blue, alpha⟩
      refine ⟨fun channel known => ?_, alpha, divisor⟩
      interval_cases channel
      · exact red
      · exact green
      · exact blue
    · intro fits
      exact ⟨fits.colours 0 (by decide), fits.colours 1 (by decide), fits.colours 2 (by decide),
        fits.alpha⟩
  · have none_ : shrinkBox image.input width box = none := by
      rw [shrinkBox, box_sums inside small, ← pixels_length,
        int_eq_none (Nat.not_lt.mp (Nat.mul_comm _ 0xFF ▸ divisor))]
      rfl
    rw [none_]
    constructor
    · intro result
      cases result
    · exact fun fits => absurd fits.divisor divisor

end Add

section Sizes

variable (sizes : Sizes)

theorem boxes_inside : ∀ box ∈ sizes.boxes, Inside sizes.width sizes.height box.pixels := by
  intro box member pixel inBox
  have inImage := (boxes_perm sizes).mem_iff.mp (List.mem_flatMap.mpr ⟨box, member, inBox⟩)
  obtain ⟨y, row, inRow⟩ := List.mem_flatMap.mp inImage
  obtain ⟨x, column, rfl⟩ := List.mem_map.mp inRow
  exact ⟨List.mem_range.mp column, List.mem_range.mp row⟩

theorem Sizes.small : sizes.width * sizes.height * 4 ≤ 2 ^ 31 := by
  have most : sizes.width * sizes.height ≤ 4096 * 4096 :=
    Nat.mul_le_mul sizes.bounded.1 sizes.bounded.2
  omega

theorem region_length (i j : Nat) : (sizes.region i j).length =
    (part (cut sizes.width sizes.newWidth) j).length *
      (part (cut sizes.height sizes.newHeight) i).length := by
  simp [Sizes.region, Nat.mul_comm]

theorem boxes_nonempty : ∀ box ∈ sizes.boxes, 0 < box.pixels.length := by
  apply (mem_boxes_iff sizes fun pixels => 0 < pixels.length).mpr
  intro i _ j _
  rw [region_length]
  exact Nat.mul_pos (Lib.part_length_pos sizes.positive.1 sizes.smaller.1 j)
    (Lib.part_length_pos sizes.positive.2 sizes.smaller.2 i)

theorem output_iff (image : Image sizes.width sizes.height) :
    (shrinkImage image.input sizes.width sizes.height sizes.newWidth sizes.newHeight).map
        (List.map UInt8.toNat) = some (sizes.boxes.flatMap fun box => image.average box.pixels) ↔
      ∀ box ∈ sizes.boxes, Fits image box.pixels := by
  rw [shrinkImage, Option.map_map]
  refine (Lib.flatten_mapM_iff (fun _ _ _ shrunk => shrinkBox_length shrunk) ?_).trans ?_
  · intro box _
    rfl
  · refine forall₂_congr fun box member => ?_
    exact shrinkBox_iff (boxes_inside sizes box member) sizes.small (boxes_nonempty sizes box member)

theorem right_iff (image : Image sizes.width sizes.height) :
    Right sizes image ↔
      ∀ i < sizes.newHeight, ∀ j < sizes.newWidth, Fits image (sizes.region i j) := by
  rw [← mem_boxes_iff sizes (Fits image)]
  constructor
  · exact fun right => right.fits
  · exact fun fits => ⟨boxes_perm sizes, (output_iff sizes image).mpr fits, fits⟩

theorem fits_of_length (image : Image sizes.width sizes.height) {pixels : List (Nat × Nat)}
    (few : pixels.length ≤ 66051) : Fits image pixels where
  colours channel _ := by
    have most := @colourSum_le _ _ image pixels channel
    omega
  alpha := by
    have most := @alphaSum_le _ _ image pixels
    omega
  divisor := by omega

end Sizes

def Image.white (width height : Nat) : Image width height where
  input := List.replicate (width * height * 4) 255
  filled := List.length_replicate ..

section White

variable {width height : Nat} {pixels : List (Nat × Nat)}

theorem white_value (inside : Inside width height pixels) {channel : Nat}
    (known : channel < 4) :
    ∀ pixel ∈ pixels, (Image.white width height).value channel pixel = 255 := by
  intro pixel member
  have offset := offset_lt (inside pixel member)
  rw [Image.value, Image.white, List.getD_eq_getElem?_getD, List.getElem?_replicate,
    if_pos (by omega)]
  rfl

theorem white_colourSum (inside : Inside width height pixels)
    {channel : Nat} (known : channel < 3) :
    (Image.white width height).colourSum pixels channel = 65025 * pixels.length := by
  have constant : ∀ pixel ∈ pixels, (Image.white width height).value channel pixel *
      (Image.white width height).value 3 pixel = 65025 := by
    intro pixel member
    rw [white_value inside (by omega) pixel member, white_value inside (by decide) pixel member]
  rw [Image.colourSum, List.map_congr_left constant, List.map_const', List.sum_replicate,
    smul_eq_mul, Nat.mul_comm]

theorem white_alphaSum (inside : Inside width height pixels) :
    (Image.white width height).alphaSum pixels = 255 * pixels.length := by
  rw [Image.alphaSum, List.map_congr_left (white_value inside (by decide)), List.map_const',
    List.sum_replicate, smul_eq_mul, Nat.mul_comm]

end White

/-- For every image of these sizes if the largest region is small enough, and for one image exactly
if the sums over each region are. -/
theorem shrinkImage_right_iff (sizes : Sizes) :
    ((∀ image, Right sizes image) ↔
      (sizes.width ⌈/⌉ sizes.newWidth) * (sizes.height ⌈/⌉ sizes.newHeight) ≤ 66051) ∧
    ∀ image, Right sizes image ↔
      ∀ i < sizes.newHeight, ∀ j < sizes.newWidth, Fits image (sizes.region i j) := by
  refine ⟨⟨fun right => ?_, fun few image => ?_⟩, right_iff sizes⟩
  · obtain ⟨i, row, highest⟩ := @Lib.exists_part_length sizes.height _ sizes.positive.2
    obtain ⟨j, column, widest⟩ := @Lib.exists_part_length sizes.width _ sizes.positive.1
    have inside := (mem_boxes_iff sizes (Inside sizes.width sizes.height)).mp (boxes_inside sizes)
    have fits := (right_iff sizes (.white sizes.width sizes.height)).mp (right _) i row j column
    have sum := fits.colours 0 (by decide)
    rw [white_colourSum (inside i row j column) (by decide), region_length, widest, highest] at sum
    omega
  · rw [right_iff]
    intro i _ j _
    apply fits_of_length
    rw [region_length]
    exact (Nat.mul_le_mul (Lib.part_length_le sizes.positive.1 j)
      (Lib.part_length_le sizes.positive.2 i)).trans few

def toOnePixel : Sizes where
  width := 258
  height := 258
  newWidth := 1
  newHeight := 1
  positive := by decide
  smaller := by decide
  bounded := by decide

theorem white_square_turns_dark :
    shrinkImage (Image.white 258 258).input 258 258 1 1 = some [1, 1, 1, 255] ∧
      ¬ Right toOnePixel (.white 258 258) := by
  let box : Box := ⟨⟨0, 258⟩, ⟨0, 258⟩⟩
  have single : toOnePixel.boxes = [box] := rfl
  have inside : Inside 258 258 box.pixels :=
    boxes_inside toOnePixel box (by rw [single]; exact List.mem_singleton_self box)
  have count : box.pixels.length = 66564 := by
    rw [pixels_length]
    show 258 * 258 = 66564
    rfl
  have colour (channel : Nat) (known : channel < 3) :
      (Image.white 258 258).colourSum box.pixels channel = 4328324100 := by
    rw [white_colourSum inside known, count]
  have alpha : (Image.white 258 258).alphaSum box.pixels = 16973820 := by
    rw [white_alphaSum inside, count]
  constructor
  · have shrunk := @shrinkBox_eq _ _ (.white 258 258) box inside (by decide) (by rw [count]; decide)
    simp only [Sums.of, colour 0 (by decide), colour 1 (by decide),
      colour 2 (by decide), alpha, count] at shrunk
    rw [shrinkImage, show boxes 258 258 1 1 = [box] from single, List.mapM_cons, shrunk]
    rfl
  · intro right
    have fits := right.fits box (by rw [single]; exact List.mem_singleton_self box)
    have sum : (Image.white 258 258).colourSum box.pixels 0 < 2 ^ 32 := fits.colours 0 (by decide)
    rw [colour 0 (by decide)] at sum
    exact absurd sum (by decide)

end ThreadIpc.PngUtils

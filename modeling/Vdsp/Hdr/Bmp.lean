import Vdsp.Abi
import Vdsp.Lib.Block
import Mathlib.Tactic.Ring

/-!
# BMP files (`bmp.cpp` of the HDR test)

The writer pads the rows of an image to multiples of four bytes, with the last row first and blue before red,
and the reader takes that back.  `ChangeRows`, which both call, is its own inverse (`changeRows_spec`,
`flip_flip`).

Memory is a block of bytes, and `none` is a store or a load outside one, a load of a byte that was never
written, or an overflow of signed arithmetic.  A file is its two headers, which are written and read as a whole,
and the bytes behind them.  Allocations succeed.
-/

namespace Vdsp

open Memory

/-- `BITMAPFILEHEADER1`. -/
structure BitmapFileHeader where
  bfType : Nat
  bfSize : Nat
  bfReserved1 : Nat
  bfReserved2 : Nat
  bfOffBits : Nat
  deriving DecidableEq, Repr

/-- `BITMAPINFOHEADER1`. -/
structure BitmapInfoHeader where
  biSize : Nat
  biWidth : Int
  biHeight : Int
  biPlanes : Nat
  biBitCount : Nat
  biCompression : Nat
  biSizeImage : Nat
  biXPelsPerMeter : Int
  biYPelsPerMeter : Int
  biClrUsed : Nat
  biClrImportant : Nat
  deriving DecidableEq, Repr

structure BmpFile where
  fileHeader : BitmapFileHeader
  infoHeader : BitmapInfoHeader
  data : Block UInt8
  deriving DecidableEq

/-- `sizeof(BITMAPFILEHEADER1)` and `sizeof(BITMAPINFOHEADER1)`. -/
def sizeofFileHeader : Nat := 14

def sizeofInfoHeader : Nat := 40

/-- `(uint16_t)'M' << 8 | 'B'`. -/
def bmpType : Nat := 0x4d42

/-- `WIDTH_BYTES(biWidth * biBitCount)`. -/
def widthBytes (biWidth : Int) (biBitCount : Nat) : Option Int :=
  (int32 (biWidth * biBitCount)).bind fun bits => (int32 (bits + 31)).map fun bits => bits.tdiv 32 * 4

/-- The conversion of an `int` to an unsigned type of `w` bits. -/
def toUnsigned (w : Nat) (x : Int) : Nat := (x % 2 ^ w).toNat

/-- The body of the loops of `ChangeRows`. -/
def changePixel (pRGBin : Block UInt8) (offsetin offsetout : Nat) (pRGBout : Block UInt8) :
    Option (Block UInt8) :=
  (fetch pRGBin offsetin).bind fun x => (store pRGBout (offsetout + 2) x).bind fun pRGBout =>
    (fetch pRGBin (offsetin + 1)).bind fun y => (store pRGBout (offsetout + 1) y).bind fun pRGBout =>
      (fetch pRGBin (offsetin + 2)).bind fun z => store pRGBout offsetout z

/-- `ChangeRows`: the rows are taken in the other order, and so are the bytes of a pixel. -/
def changeRows (pRGBin : Block UInt8) (width height : Nat) (pRGBout : Block UInt8) : Option (Block UInt8) :=
  loop height (fun i => loop width fun j =>
    let offsetin := (i * width + j) * 3 % 2 ^ 32
    let offsetout := ((height - i - 1) * width + j) * 3 % 2 ^ 32
    changePixel pRGBin offsetin offsetout) pRGBout

/-- `save_bmp`: the result and the file, if it could be opened. -/
def saveBmp (fopen : Bool) (pRGBData : Block UInt8) (width height : Nat) : Option (Nat × Option BmpFile) :=
  let biWidth := intArg width
  let biHeight := intArg height
  -- the first value of `dwImageSize` is overwritten, but its product must not overflow
  (int32 (biWidth * biHeight)).bind fun area => (int32 (area * 3)).bind fun _ =>
  (widthBytes biWidth 24).bind fun row => (int32 (row * biHeight)).bind fun size =>
    let dwImageSize := toUnsigned 32 size
    let bfSize := (sizeofFileHeader + sizeofInfoHeader + dwImageSize) % 2 ^ 32
    if dwImageSize = 0 then some (0, none)
    else if fopen = false then some (0, none)
    else
      (changeRows pRGBData width height (calloc (width * height * 3 % 2 ^ 32) 0)).bind fun pTempData2 =>
        let widthByteNum := toUnsigned 32 row
        (loop height (fun i => loop (width * 3 % 2 ^ 32) fun j pTempData1 =>
          (fetch pTempData2 ((width * 3 * i + j) % 2 ^ 32)).bind fun x =>
            store pTempData1 ((i * widthByteNum + j) % 2 ^ 32) x) (calloc dwImageSize 0)).map fun pTempData1 =>
          (bfSize, some
            { fileHeader :=
                { bfType := bmpType
                  bfSize := bfSize
                  bfReserved1 := 0
                  bfReserved2 := 0
                  bfOffBits := sizeofFileHeader + sizeofInfoHeader }
              infoHeader :=
                { biSize := sizeofInfoHeader
                  biWidth := biWidth
                  biHeight := biHeight
                  biPlanes := 1
                  biBitCount := 24
                  biCompression := 0
                  biSizeImage := dwImageSize
                  biXPelsPerMeter := 72
                  biYPelsPerMeter := 72
                  biClrUsed := 0
                  biClrImportant := 0 }
              data := pTempData1 })

/-- An index of type `int` that is computed from numbers that are not negative. -/
def intIndex (n : Nat) : Option Nat := if n < 2 ^ 31 then some n else none

/-- `OpenBMPFile`: the result, and the header and the image, if there is one.  The rows are read with a
`widthByteNum` of 16 bits. -/
def openBmpFile (hFile : Option BmpFile) : Option (Bool × Option (BitmapInfoHeader × Block UInt8)) :=
  match hFile with
  | none => some (false, none)
  | some file =>
    if file.fileHeader.bfType ≠ bmpType then some (false, none)
    else
      let width := file.infoHeader.biWidth
      let height := file.infoHeader.biHeight
      -- the colour table is skipped
      let data := file.data.drop (toUnsigned 32 (file.fileHeader.bfOffBits - sizeofFileHeader
        - sizeofInfoHeader))
      (widthBytes width file.infoHeader.biBitCount).bind fun row => (int32 (row * height)).bind fun size =>
        let dwDataSize := toUnsigned 32 size
        let widthByteNum := toUnsigned 16 row
        (int32 (width * height)).bind fun area => (int32 (area * 3)).bind fun bytes =>
          let pUpsideDownImageBuffer := realloc data dwDataSize
          (loop height.toNat (fun i => loop (width.toNat * 3) fun j pTempData1 =>
            (intIndex (i * widthByteNum + j)).bind fun src =>
              (intIndex (width.toNat * 3 * i + j)).bind fun dst =>
                (fetch pUpsideDownImageBuffer src).bind fun x => store pTempData1 dst x)
            (malloc UInt8 bytes.toNat)).bind fun pTempData1 =>
          (changeRows pTempData1 (toUnsigned 32 width) (toUnsigned 32 height) (malloc UInt8 bytes.toNat)).map
            fun pImageBuffer => (true, some (file.infoHeader, pImageBuffer))

/-! ### Changing rows -/

/-- The byte that comes to the position `k`. -/
def flip (w h k : Nat) : Nat := (h - 1 - k / (w * 3)) * (w * 3) + (k % (w * 3) / 3 * 3 + (2 - k % (w * 3) % 3))

private theorem pixel_lt {w q : Nat} (hq : q < w * 3) : q / 3 * 3 + (2 - q % 3) < w * 3 := by
  omega

private theorem flip_row {h r : Nat} (hr : r < h) : h - 1 - r < h ∧ h - 1 - (h - 1 - r) = r := by
  omega

theorem flip_lt {w h k : Nat} (hk : k < h * (w * 3)) : flip w h k < h * (w * 3) := by
  obtain ⟨hrow, hcol⟩ := row_lt hk
  exact row_col_lt (flip_row hrow).1 (pixel_lt hcol)

theorem flip_flip {w h k : Nat} (hk : k < h * (w * 3)) : flip w h (flip w h k) = k := by
  obtain ⟨hrow, hcol⟩ := row_lt hk
  have hpixel : (k % (w * 3) / 3 * 3 + (2 - k % (w * 3) % 3)) / 3 * 3 +
      (2 - (k % (w * 3) / 3 * 3 + (2 - k % (w * 3) % 3)) % 3) = k % (w * 3) := by
    generalize k % (w * 3) = q
    omega
  obtain ⟨hdiv, hmod⟩ := row_col (h - 1 - k / (w * 3)) (pixel_lt hcol)
  rw [← flip] at hdiv hmod
  rw [flip, hdiv, hmod, hpixel, (flip_row hrow).2, Nat.mul_comm, Nat.div_add_mod]

/-- A byte of the pixel at the row `i` and the column `j`. -/
private theorem flip_pixel {w h i j c : Nat} (hi : i < h) (hj : j < w) (hc : c < 3) :
    flip w h (((h - i - 1) * w + j) * 3 + c) = (i * w + j) * 3 + (2 - c) := by
  have hcol : j * 3 + c < w * 3 := by omega
  have hpos : ((h - i - 1) * w + j) * 3 + c = (h - i - 1) * (w * 3) + (j * 3 + c) := by ring
  obtain ⟨hdiv, hmod⟩ := row_col (h - i - 1) hcol
  have hpixel : (j * 3 + c) / 3 * 3 + (2 - (j * 3 + c) % 3) = j * 3 + (2 - c) := by omega
  have hrow : h - 1 - (h - i - 1) = i := by omega
  rw [flip, hpos, hdiv, hmod, hpixel, hrow]
  ring

private theorem pixel_row_lt {w h i j : Nat} (hi : i < h) (hj : j < w) : (i * w + j) * 3 + 2 < h * (w * 3) := by
  have hlt := row_col_lt hi hj
  have hbytes : h * (w * 3) = h * w * 3 := by ring
  omega

/-- The bytes of the pixels that are stored to are those of the image. -/
private theorem mem_pixels {w h k : Nat} : k < h * (w * 3) ↔ ∃ i < h, ∃ j < w,
    (k = ((h - i - 1) * w + j) * 3 + 2 ∨ k = ((h - i - 1) * w + j) * 3 + 1) ∨
      k = ((h - i - 1) * w + j) * 3 := by
  constructor
  · intro hk
    have hbytes : h * (w * 3) = h * w * 3 := by ring
    obtain ⟨hrow, hcol⟩ := row_lt (k := k / 3) (h := h) (W := w) (by omega)
    have hpos : (k / 3) / w * w + (k / 3) % w = k / 3 := by rw [Nat.mul_comm, Nat.div_add_mod]
    refine ⟨h - 1 - k / 3 / w, (flip_row hrow).1, k / 3 % w, hcol, ?_⟩
    have hback : h - (h - 1 - k / 3 / w) - 1 = k / 3 / w := by
      rw [Nat.sub_right_comm]
      exact (flip_row hrow).2
    rw [hback, hpos]
    omega
  · rintro ⟨i, hi, j, hj, h3⟩
    have hlt := pixel_row_lt (show h - i - 1 < h by omega) hj
    omega

private theorem changePixel_spec {v : Nat → UInt8} {p o : Nat} {pRGBin pRGBout : Block UInt8}
    (hin : ∀ m < 3, fetch pRGBin (p + m) = some (v (o + (2 - m)))) (hout : o + 2 < pRGBout.length) :
    ∃ c, changePixel pRGBin p o pRGBout = some c ∧
      Fills v (fun k => (k = o + 2 ∨ k = o + 1) ∨ k = o) pRGBout c := by
  obtain ⟨c₁, h₁, f₁⟩ := fills_store v (k := o + 2) (b := pRGBout) hout rfl
  have l₁ := f₁.length
  obtain ⟨c₂, h₂, f₂⟩ := fills_store v (k := o + 1) (b := c₁) (by omega) rfl
  have l₂ := f₂.length
  obtain ⟨c₃, h₃, f₃⟩ := fills_store v (k := o) (b := c₂) (by omega) rfl
  have hx := hin 0 (by omega)
  have hy := hin 1 (by omega)
  have hz := hin 2 (by omega)
  refine ⟨c₃, ?_, (f₁.trans f₂).trans f₃⟩
  simp only [Nat.add_zero, Nat.sub_zero, Nat.sub_self, Nat.add_one_sub_one] at hx hy hz
  simp only [changePixel, hx, hy, hz, Option.bind_some, h₁, h₂, h₃]

/-- The rows of the image are changed, and nothing behind it. -/
theorem changeRows_spec {p q : Block UInt8} {a : Nat → UInt8} {w h : Nat} (hbytes : h * (w * 3) < 2 ^ 32)
    (hin : ∀ k < h * (w * 3), fetch p k = some (a k)) (hout : h * (w * 3) ≤ q.length) :
    ∃ c, changeRows p w h q = some c ∧
      Fills (fun k => a (flip w h k)) (fun k => k < h * (w * 3)) q c := by
  obtain ⟨c, hc, hfill⟩ := fills_rows (h := h) (w := w) (v := fun k => a (flip w h k))
    (f := fun i j => changePixel p ((i * w + j) * 3 % 2 ^ 32) (((h - i - 1) * w + j) * 3 % 2 ^ 32))
    q fun i hi j hj c₀ hlen => by
      have hlt := pixel_row_lt hi hj
      have hlt' := pixel_row_lt (show h - i - 1 < h by omega) hj
      rw [Nat.mod_eq_of_lt (by omega), Nat.mod_eq_of_lt (by omega)]
      refine changePixel_spec (fun m hm => ?_) (by omega)
      rw [hin _ (by omega), flip_pixel hi hj (by omega)]
      congr 3
      omega
  exact ⟨c, hc, hfill.congr fun k => mem_pixels⟩

/-! ### Rows in a file -/

/-- The bytes of a row in a file. -/
def rowBytes (w : Nat) : Nat := (24 * w + 31) / 32 * 4

theorem le_rowBytes (w : Nat) : w * 3 ≤ rowBytes w := by
  unfold rowBytes
  omega

private theorem rowBits_eq (w : Nat) : (w : Int) * (24 : Nat) = (24 * w : Nat) ∧
    ((24 * w : Nat) : Int) + 31 = (24 * w + 31 : Nat) := by
  omega

theorem widthBytes_eq {w : Nat} (h : 24 * w + 31 < 2 ^ 31) : widthBytes w 24 = some (rowBytes w : Int) := by
  obtain ⟨hbits, hround⟩ := rowBits_eq w
  rw [widthBytes, hbits, int32_of_lt (by omega), Option.bind_some, hround, int32_of_lt h]
  rfl

theorem widthBytes_none {w : Nat} (h : 2 ^ 31 ≤ 24 * w + 31) : widthBytes w 24 = none := by
  obtain ⟨hbits, hround⟩ := rowBits_eq w
  rw [widthBytes, hbits]
  by_cases hlt : 24 * w < 2 ^ 31
  · rw [int32_of_lt hlt, Option.bind_some, hround, int32_of_le h]
    rfl
  · rw [int32_of_le (by omega)]
    rfl

theorem toUnsigned_natCast (bits n : Nat) : toUnsigned bits n = n % 2 ^ bits := by
  have hpow : (2 : Int) ^ bits = (2 ^ bits : Nat) := by norm_cast
  rw [toUnsigned, hpow, ← Int.natCast_emod, Int.toNat_natCast]

theorem toUnsigned_of_lt {bits n : Nat} (h : n < 2 ^ bits) : toUnsigned bits n = n := by
  rw [toUnsigned_natCast, Nat.mod_eq_of_lt h]

theorem intIndex_of_lt {n : Nat} (h : n < 2 ^ 31) : intIndex n = some n := if_pos h

theorem intIndex_of_le {n : Nat} (h : 2 ^ 31 ≤ n) : intIndex n = none := if_neg (by omega)

/-- The bytes of the image in the file; the rest of a row is zero. -/
def padded (a : Nat → UInt8) (w h m : Nat) : UInt8 :=
  if m % rowBytes w < w * 3 then a (flip w h (m / rowBytes w * (w * 3) + m % rowBytes w)) else 0

/-- A row of the file begins `s` bytes behind the one before. -/
def packed (F : Nat → UInt8) (w s k : Nat) : UInt8 := F (k / (w * 3) * s + k % (w * 3))

/-- The arithmetic of `int` that both functions do does not overflow. -/
structure Fits (w h : Nat) : Prop where
  row : 24 * w + 31 < 2 ^ 31
  size : rowBytes w * h < 2 ^ 31

namespace Fits

variable {w h : Nat}

theorem image_lt (hf : Fits w h) : h * (w * 3) < 2 ^ 31 := by
  have hle := Nat.mul_le_mul_left h (le_rowBytes w)
  have hsize := hf.size
  rw [Nat.mul_comm] at hsize
  omega

theorem rowBytes_lt (hf : Fits w h) : rowBytes w < 2 ^ 31 := by
  have hrow := hf.row
  unfold rowBytes
  omega

theorem height_lt (hf : Fits w h) (hw : 1 ≤ w) : h < 2 ^ 31 := by
  have hpos : 0 < rowBytes w := by
    have := le_rowBytes w
    omega
  have := Nat.le_mul_of_pos_left h hpos
  have := hf.size
  omega

/-- The product for the buffers of an image. -/
theorem int32_image (hf : Fits w h) :
    int32 ((w : Int) * h) = some ((w * h : Nat) : Int) ∧
    int32 ((w * h : Nat) * 3) = some ((h * (w * 3) : Nat) : Int) := by
  have himage := hf.image_lt
  have hbytes : (w * h) * 3 = h * (w * 3) := by ring
  constructor
  · rw [← Int.natCast_mul, int32_of_lt (by omega)]
  · rw [show ((w * h : Nat) * 3 : Int) = (w * h * 3 : Nat) by omega, hbytes, int32_of_lt himage]

theorem int32_size (hf : Fits w h) : int32 ((rowBytes w : Int) * h) = some ((rowBytes w * h : Nat) : Int) := by
  rw [← Int.natCast_mul, int32_of_lt hf.size]

end Fits

/-- The file has the headers of the image and its rows, each padded with zeros. -/
theorem saveBmp_eq {w h : Nat} (hf : Fits w h) (hw : 1 ≤ w) (hh : 1 ≤ h) {pRGBData : Block UInt8}
    {a : Nat → UInt8}
    (ha : ∀ k < h * (w * 3), fetch pRGBData k = some (a k)) :
    ∃ ret file, saveBmp true pRGBData w h = some (ret, some file) ∧ file.fileHeader.bfType = bmpType ∧
      file.fileHeader.bfOffBits = sizeofFileHeader + sizeofInfoHeader ∧ file.infoHeader.biWidth = w ∧
      file.infoHeader.biHeight = h ∧ file.infoHeader.biBitCount = 24 ∧ file.data.length = rowBytes w * h ∧
      ∀ m < rowBytes w * h, fetch file.data m = some (padded a w h m) := by
  have himage := hf.image_lt
  have hrow := hf.row
  have hsize := hf.size
  have hle := le_rowBytes w
  have hpos : 0 < rowBytes w * h := Nat.mul_pos (by omega) hh
  obtain ⟨harea, hbytes⟩ := hf.int32_image
  -- the image with its rows changed
  have hbytes' : w * h * 3 = h * (w * 3) := by ring
  obtain ⟨c, hc, hfill⟩ := changeRows_spec (w := w) (h := h) (q := calloc (w * h * 3 % 2 ^ 32) 0) (by omega) ha
    (by rw [length_calloc, hbytes', Nat.mod_eq_of_lt (by omega)])
  -- its rows in the file
  obtain ⟨d, hd, hcopy⟩ := fills_copy (e := c) (a := fun k => a (flip w h k)) (h := h) (w := w * 3) (s := w * 3)
    (t := rowBytes w) (calloc (rowBytes w * h) 0)
    (f := fun i j pTempData1 => (fetch c ((w * 3 * i + j) % 2 ^ 32)).bind fun x =>
      store pTempData1 ((i * rowBytes w + j) % 2 ^ 32) x) hle
    (fun i hi j hj b => by
      have hsrc := row_col_lt hi hj
      have hdst : i * rowBytes w + j < h * rowBytes w := row_col_lt hi (by omega)
      rw [Nat.mul_comm h] at hdst
      rw [Nat.mul_comm (w * 3) i, Nat.mod_eq_of_lt (by omega), Nat.mod_eq_of_lt (by omega)])
    (fun i hi j hj => hfill.stored _ (row_col_lt hi hj))
    (fun i hi j hj => by
      rw [length_calloc, Nat.mul_comm (rowBytes w)]
      exact row_col_lt hi (by omega))
  have hsize' : toUnsigned 32 (rowBytes w * h : Nat) = rowBytes w * h := toUnsigned_of_lt (by omega)
  have hrow' : toUnsigned 32 (rowBytes w) = rowBytes w := by
    have := hf.rowBytes_lt
    exact toUnsigned_of_lt (by omega)
  have hcols : w * 3 % 2 ^ 32 = w * 3 := Nat.mod_eq_of_lt (by omega)
  unfold saveBmp
  rw [intArg_of_lt (show w < 2 ^ 31 by omega), intArg_of_lt (hf.height_lt hw)]
  dsimp only
  rw [harea, Option.bind_some, hbytes, Option.bind_some, widthBytes_eq hrow, Option.bind_some, hf.int32_size,
    Option.bind_some, hsize', if_neg (by omega), if_neg (by decide), hc, Option.bind_some, hrow', hcols, hd]
  refine ⟨_, _, rfl, rfl, rfl, rfl, rfl, rfl, by rw [hcopy.length, length_calloc], fun m hm => ?_⟩
  obtain ⟨hrowm, hcolm⟩ := row_lt (h := h) (W := rowBytes w) (by rwa [Nat.mul_comm])
  unfold padded
  by_cases hcol : m % rowBytes w < w * 3
  · rw [if_pos hcol]
    exact hcopy.stored m ⟨hrowm, hcol⟩
  · rw [if_neg hcol, ← fetch_calloc (k := m) (a := (0 : UInt8)) hm]
    exact hcopy.kept m fun hS => hcol hS.2

/-- The image has the rows that begin `widthByteNum` bytes apart in the file. -/
theorem openBmpFile_eq {w h : Nat} (hf : Fits w h) (hw : 1 ≤ w) (hh : 1 ≤ h) {file : BmpFile} {F : Nat → UInt8}
    (htype : file.fileHeader.bfType = bmpType)
    (hoff : file.fileHeader.bfOffBits = sizeofFileHeader + sizeofInfoHeader)
    (hwidth : file.infoHeader.biWidth = w) (hheight : file.infoHeader.biHeight = h)
    (hcount : file.infoHeader.biBitCount = 24) (hdata : ∀ m < rowBytes w * h, fetch file.data m = some (F m)) :
    ∃ pImageBuffer, openBmpFile (some file) = some (true, some (file.infoHeader, pImageBuffer)) ∧
      pImageBuffer.length = h * (w * 3) ∧ ∀ k < h * (w * 3),
        fetch pImageBuffer k = some (packed F w (rowBytes w % 2 ^ 16) (flip w h k)) := by
  have himage := hf.image_lt
  have hrow := hf.row
  have hsize := hf.size
  have hle := le_rowBytes w
  obtain ⟨harea, hbytes⟩ := hf.int32_image
  have hsrc : ∀ i < h, ∀ j < w * 3, i * (rowBytes w % 2 ^ 16) + j < rowBytes w * h := fun i hi j hj => by
    have hlt : i * rowBytes w + j < h * rowBytes w := row_col_lt hi (by omega)
    have hstride := Nat.mul_le_mul_left i (Nat.mod_le (rowBytes w) (2 ^ 16))
    rw [Nat.mul_comm (rowBytes w)]
    exact Nat.lt_of_le_of_lt (Nat.add_le_add_right hstride j) hlt
  obtain ⟨c, hc, hcopy⟩ := fills_copy (e := realloc file.data (rowBytes w * h)) (a := F) (h := h) (w := w * 3)
    (s := rowBytes w % 2 ^ 16) (t := w * 3) (malloc UInt8 (h * (w * 3)))
    (f := fun i j pTempData1 =>
      (intIndex (i * (rowBytes w % 2 ^ 16) + j)).bind fun src => (intIndex (w * 3 * i + j)).bind fun dst =>
        (fetch (realloc file.data (rowBytes w * h)) src).bind fun x => store pTempData1 dst x) (by omega)
    (fun i hi j hj b => by
      have hdst := row_col_lt hi hj
      have := hsrc i hi j hj
      rw [Nat.mul_comm (w * 3) i, intIndex_of_lt (by omega), intIndex_of_lt (by omega)]
      rfl)
    (fun i hi j hj => fetch_realloc (hsrc i hi j hj) (hdata _ (hsrc i hi j hj)))
    (fun i hi j hj => by
      rw [length_malloc]
      exact row_col_lt hi hj)
  obtain ⟨d, hd, hfill⟩ := changeRows_spec (w := w) (h := h) (p := c) (q := malloc UInt8 (h * (w * 3)))
    (a := packed F w (rowBytes w % 2 ^ 16)) (by omega) (fun k hk => hcopy.stored k (row_lt hk))
    (by rw [length_malloc])
  refine ⟨d, ?_, by rw [hfill.length, length_malloc], fun k hk => hfill.stored k hk⟩
  have hskip : toUnsigned 32 (file.fileHeader.bfOffBits - sizeofFileHeader - sizeofInfoHeader) = 0 := by
    rw [hoff]
    rfl
  have hsize' : toUnsigned 32 (rowBytes w * h : Nat) = rowBytes w * h := toUnsigned_of_lt (by omega)
  have hwidth' : toUnsigned 32 w = w := toUnsigned_of_lt (by omega)
  have hheight' : toUnsigned 32 h = h := by
    have := hf.height_lt hw
    exact toUnsigned_of_lt (by omega)
  unfold openBmpFile
  dsimp only
  rw [if_neg (by rw [htype]; exact fun h => h rfl), hskip, hwidth, hheight, hcount, widthBytes_eq hrow,
    Option.bind_some,
    hf.int32_size, Option.bind_some, harea, Option.bind_some, hbytes, Option.bind_some,
    toUnsigned_natCast 16, hsize',
    hwidth', hheight', List.drop_zero]
  simp only [Int.toNat_natCast, hc, hd, Option.bind_some, Option.map_some]

/-- The size of any other image overflows. -/
theorem saveBmp_none {w h : Nat} (hw : w < 2 ^ 31) (hh : h < 2 ^ 31) (hf : ¬ Fits w h)
    (pRGBData : Block UInt8) :
    saveBmp true pRGBData w h = none := by
  unfold saveBmp
  rw [intArg_of_lt hw, intArg_of_lt hh]
  dsimp only
  cases int32 ((w : Int) * h) with
  | none => rfl
  | some area =>
    rw [Option.bind_some]
    cases int32 (area * 3) with
    | none => rfl
    | some bytes =>
      rw [Option.bind_some]
      by_cases hrow : 24 * w + 31 < 2 ^ 31
      · have hsize : 2 ^ 31 ≤ rowBytes w * h := Nat.not_lt.1 fun hsize => hf ⟨hrow, hsize⟩
        rw [widthBytes_eq hrow, Option.bind_some, ← Int.natCast_mul, int32_of_le hsize]
        rfl
      · rw [widthBytes_none (Nat.not_lt.1 hrow)]
        rfl

/-- The file of an image is read with the rows where `widthByteNum` says. -/
theorem openBmpFile_saveBmp {w h : Nat} (hf : Fits w h) (hw : 1 ≤ w) (hh : 1 ≤ h) {pRGBData : Block UInt8}
    {a : Nat → UInt8} (ha : ∀ k < h * (w * 3), fetch pRGBData k = some (a k)) :
    ∃ ret file pImageBuffer, saveBmp true pRGBData w h = some (ret, some file) ∧
      openBmpFile (some file) = some (true, some (file.infoHeader, pImageBuffer)) ∧
      file.infoHeader.biWidth = w ∧ file.infoHeader.biHeight = h ∧ pImageBuffer.length = h * (w * 3) ∧
      ∀ k < h * (w * 3), fetch pImageBuffer k =
        some (packed (padded a w h) w (rowBytes w % 2 ^ 16) (flip w h k)) := by
  obtain ⟨ret, file, hsave, htype, hoff, hwidth, hheight, hcount, -, hdata⟩ := saveBmp_eq hf hw hh ha
  obtain ⟨pImageBuffer, hopen, hlen, hload⟩ := openBmpFile_eq hf hw hh htype hoff hwidth hheight hcount hdata
  exact ⟨ret, file, pImageBuffer, hsave, hopen, hwidth, hheight, hlen, hload⟩

/-- The reader finds a row where the writer left it. -/
theorem packed_padded {a : Nat → UInt8} {w h k : Nat} (hs : h = 1 ∨ rowBytes w < 2 ^ 16)
    (hk : k < h * (w * 3)) :
    packed (padded a w h) w (rowBytes w % 2 ^ 16) k = a (flip w h k) := by
  obtain ⟨hrow, hcol⟩ := row_lt hk
  have hle := le_rowBytes w
  have hstart : k / (w * 3) * (rowBytes w % 2 ^ 16) = k / (w * 3) * rowBytes w := by
    rcases hs with rfl | hs
    · rw [Nat.lt_one_iff.1 hrow, Nat.zero_mul, Nat.zero_mul]
    · rw [Nat.mod_eq_of_lt hs]
  obtain ⟨hdiv, hmod⟩ := row_col (W := rowBytes w) (k / (w * 3)) (show k % (w * 3) < rowBytes w by omega)
  rw [packed, hstart, padded, hmod, hdiv, if_pos hcol, Nat.mul_comm (k / (w * 3)), Nat.div_add_mod]

/-- With a row of more than `UINT16_MAX` bytes, what is taken for the second row begins in the first one. -/
theorem packed_padded_second {a : Nat → UInt8} {w h : Nat} (hw : 1 ≤ w) (hs : 2 ^ 16 ≤ rowBytes w) :
    packed (padded a w h) w (rowBytes w % 2 ^ 16) (w * 3) =
      if rowBytes w % 2 ^ 16 < w * 3 then a (flip w h (rowBytes w % 2 ^ 16)) else 0 := by
  have hlt : rowBytes w % 2 ^ 16 < rowBytes w := by omega
  rw [packed, Nat.div_self (by omega), Nat.mod_self, Nat.one_mul, Nat.add_zero, padded, Nat.mod_eq_of_lt hlt,
    Nat.div_eq_of_lt hlt, Nat.zero_mul, Nat.zero_add]

/-! ### The round trip -/

/-- Every image of `w` times `h` pixels comes back from its file. -/
def RoundTrips (w h : Nat) : Prop :=
  ∀ image : List UInt8, image.length = h * (w * 3) → ∃ ret file info,
    saveBmp true (image.map some) w h = some (ret, some file) ∧
    openBmpFile (some file) = some (true, some (info, image.map some)) ∧ info.biWidth = w ∧ info.biHeight = h

/-- The rows are where they are looked for, and changing them twice gives the image. -/
theorem roundTrips_of {w h : Nat} (hw : 1 ≤ w) (hh : 1 ≤ h) (hf : Fits w h) (hs : h = 1 ∨ rowBytes w < 2 ^ 16) :
    RoundTrips w h := by
  intro image hlen
  obtain ⟨ret, file, c, hsave, hopen, hwidth, hheight, hclen, hload⟩ :=
    openBmpFile_saveBmp hf hw hh fun k hk => fetch_map_getD 0 (hlen ▸ hk)
  have himage : c = image.map some := by
    refine eq_map_of_getD 0 (by rw [hclen, hlen]) fun k hk => ?_
    rw [hlen] at hk
    rw [hload k hk, packed_padded hs (flip_lt hk), flip_flip hk]
  rw [himage] at hopen
  exact ⟨ret, file, file.infoHeader, hsave, hopen, hwidth, hheight⟩

/-- The image with one byte that is not zero, the first of those that are saved as the second row. -/
def secondRow (w h : Nat) : List UInt8 :=
  (List.range (h * (w * 3))).map fun k => if flip w h k = w * 3 then 1 else 0

private theorem secondRow_getD {w h k : Nat} (hk : k < h * (w * 3)) :
    (secondRow w h).getD k 0 = if flip w h k = w * 3 then 1 else 0 := by
  rw [List.getD_eq_getElem?_getD, secondRow, List.getElem?_map, List.getElem?_range hk]
  rfl

/-- The second row is not where it is looked for. -/
theorem not_roundTrips {w h : Nat} (hw : 1 ≤ w) (hh : 2 ≤ h) (hf : Fits w h) (hs : 2 ^ 16 ≤ rowBytes w) :
    ¬ RoundTrips w h := by
  intro hround
  have hlen : (secondRow w h).length = h * (w * 3) := by rw [secondRow, List.length_map, List.length_range]
  obtain ⟨ret, file, info, hsave, hopen, -⟩ := hround _ hlen
  obtain ⟨ret', file', c, hsave', hopen', -, -, -, hload⟩ :=
    openBmpFile_saveBmp hf hw (by omega) fun k hk => fetch_map_getD 0 (hlen ▸ hk)
  rw [hsave] at hsave'
  cases hsave'
  rw [hopen] at hopen'
  cases hopen'
  -- the byte that was stored as the first one of the second row
  have hsecond : w * 3 < h * (w * 3) := by
    have hlt := row_col_lt (i := 1) (h := h) (j := 0) (W := w * 3) (by omega) (by omega)
    omega
  have hwritten := fetch_map_getD 0 (hlen ▸ flip_lt hsecond)
  rw [secondRow_getD (flip_lt hsecond), flip_flip hsecond, if_pos rfl] at hwritten
  -- is read from a place of the first row
  have hread := hload _ (flip_lt hsecond)
  rw [flip_flip hsecond, packed_padded_second hw hs, hwritten] at hread
  by_cases hcol : rowBytes w % 2 ^ 16 < w * 3
  · have hfirst : rowBytes w % 2 ^ 16 < h * (w * 3) := by omega
    rw [if_pos hcol, secondRow_getD (flip_lt hfirst), flip_flip hfirst, if_neg (by omega)] at hread
    cases hread
  · rw [if_neg hcol] at hread
    cases hread

/-- Every image comes back exactly when its size fits an `int`, and its rows fit `widthByteNum` or there is only
one. -/
theorem roundTrips_iff {w h : Nat} (hw : 1 ≤ w) (hw' : w < 2 ^ 31) (hh : 1 ≤ h) (hh' : h < 2 ^ 31) :
    RoundTrips w h ↔ Fits w h ∧ (h = 1 ∨ rowBytes w < 2 ^ 16) := by
  constructor
  · intro hround
    have hf : Fits w h := by
      by_contra hf
      obtain ⟨ret, file, info, hsave, -⟩ := hround (secondRow w h)
        (by rw [secondRow, List.length_map, List.length_range])
      rw [saveBmp_none hw' hh' hf] at hsave
      cases hsave
    refine ⟨hf, ?_⟩
    by_contra hs
    exact not_roundTrips hw (by omega) hf (by omega) hround
  · rintro ⟨hf, hs⟩
    exact roundTrips_of hw hh hf hs

/-- Images of 5 times 3 pixels, with one byte of padding in a row. -/
theorem roundTrips_iff_fiveByThree : RoundTrips 5 3 :=
  (roundTrips_iff (by decide) (by decide) (by decide) (by decide)).2 ⟨⟨by decide, by decide⟩, .inr (by decide)⟩

/-- The `widthByteNum` of the reader is 0 where that of the writer is 65536. -/
theorem roundTrips_fails : ¬ RoundTrips 21845 2 :=
  not_roundTrips (by decide) (by decide) ⟨by decide, by decide⟩ (by decide)

end Vdsp

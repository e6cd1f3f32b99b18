import Vdsp.Depth.BmpRoundTrip
import Mathlib.Order.Bounds.Basic

/-!
# The images that the depth test saves (`bmp_io.cpp`)

The `SaveImage` functions copy an image to three arrays of `int` and write these to a BMP file.  They differ in
where the values of a pixel come from.  What they save is what `bmp_read` reads (`saveImages_read_back`); the
one of 16 bits spreads its values over the range of a byte (`saveImageGray2U16_spread`).
-/

namespace Vdsp

open Memory Reading

/-- `Save_R`, `Save_G` and `Save_B`. -/
structure SaveArrays where
  r : Block Int
  g : Block Int
  b : Block Int

/-- The body of the loops; `load i j` are the values of a pixel. -/
def savePixel (W : Int) (load : Nat → Nat → Except BmpFault (Int × Int × Int)) (i j : Nat) (s : SaveArrays) :
    Except BmpFault SaveArrays := do
  let k ← defined (int32 (i * W + j))
  let (red, green, blue) ← load i j
  let r ← defined (store s.r k.toNat red)
  let g ← defined (store s.g k.toNat green)
  let b ← defined (store s.b k.toNat blue)
  pure ⟨r, g, b⟩

/-- What the functions have in common. -/
def saveImageBy (a : Abi) (byteSwap fopen : Bool) (allocs : BmpArrays) (W H : Int)
    (load : Nat → Nat → Except BmpFault (Int × Int × Int)) : Except BmpFault (List UInt8) := do
  let size ← defined (int32 (W * H))
  let s ← tryLoop H.toNat (fun i => tryLoop W.toNat (savePixel W load i))
    { r := callocInts a size allocs.r
      g := callocInts a size allocs.g
      b := callocInts a size allocs.b }
  bmpWrite a byteSwap fopen W H s.r s.g s.b

/-- An element of an image, at an index of type `int`. -/
def element {α : Type} (image : Block α) (k : Int) : Except BmpFault α := do
  let k ← defined (int32 k)
  if 0 ≤ k then defined (fetch image k.toNat) else .error .undefined

/-- `SaveImage`. -/
def saveImage (a : Abi) (byteSwap fopen : Bool) (allocs : BmpArrays) (image : Block UInt8) (W H : Int) :
    Except BmpFault (List UInt8) :=
  saveImageBy a byteSwap fopen allocs W H fun i j => do
    let r ← element image ((i * W + j) * 3)
    let g ← element image ((i * W + j) * 3 + 1)
    let b ← element image ((i * W + j) * 3 + 2)
    pure (r.toNat, g.toNat, b.toNat)

/-- `SaveImage_gray`. -/
def saveImageGray (a : Abi) (byteSwap fopen : Bool) (allocs : BmpArrays) (image : Block UInt8) (W H : Int) :
    Except BmpFault (List UInt8) :=
  saveImageBy a byteSwap fopen allocs W H fun i j => do
    let x ← element image (i * W + j)
    pure (x.toNat, x.toNat, x.toNat)

/-- `SaveImage_gray2`; the rows of the image have the length `P`. -/
def saveImageGray2 (a : Abi) (byteSwap fopen : Bool) (allocs : BmpArrays) (image : Block UInt8) (W H P : Int) :
    Except BmpFault (List UInt8) :=
  saveImageBy a byteSwap fopen allocs W H fun i j => do
    let x ← element image (i * P + j)
    pure (x.toNat, x.toNat, x.toNat)

/-- `SaveImage_3plane`. -/
def saveImage3plane (a : Abi) (byteSwap fopen : Bool) (allocs : BmpArrays) (R G B : Block UInt8) (W H : Int) :
    Except BmpFault (List UInt8) :=
  saveImageBy a byteSwap fopen allocs W H fun i j => do
    let r ← element R (i * W + j)
    let g ← element G (i * W + j)
    let b ← element B (i * W + j)
    pure (r.toNat, g.toNat, b.toNat)

/-- The value of a pixel without depth. -/
def noDepth : Nat := 32768

/-- The body of the first loops of `SaveImage_gray2_u16`, to the least and the greatest value. -/
def rangePixel (image : Block UInt16) (P : Int) (i j : Nat) (r : Nat × Nat) : Except BmpFault (Nat × Nat) := do
  let x ← element image (i * P + j)
  let minV := if x.toNat ≠ noDepth ∧ x.toNat < r.1 then x.toNat else r.1
  let maxV := if x.toNat ≠ noDepth ∧ r.2 < x.toNat then x.toNat else r.2
  pure (minV, maxV)

/-- The values of a pixel in its second loops. -/
def spreadPixel (image : Block UInt16) (P : Int) (minV maxV : Nat) (i j : Nat) :
    Except BmpFault (Int × Int × Int) := do
  let x ← element image (i * P + j)
  if x.toNat = noDepth then pure (255, 255, 255)
  else
    let range : Int := maxV - minV
    if range = 0 then .error .undefined
    else
      let v := Int.tdiv (255 * (x.toNat - minV)) range
      pure (v, v, v)

/-- `SaveImage_gray2_u16`. -/
def saveImageGray2U16 (a : Abi) (byteSwap fopen : Bool) (allocs : BmpArrays) (image : Block UInt16) (W H P : Int) :
    Except BmpFault (List UInt8) := do
  let (minV, maxV) ← tryLoop H.toNat (fun i => tryLoop W.toNat (rangePixel image P i)) (65535, 0)
  saveImageBy a byteSwap fopen allocs W H (spreadPixel image P minV maxV)

/-! ### What is saved -/

variable {w h : Nat}

theorem element_eq {α : Type} {image : Block α} {k : Nat} {x : α} (hk : k < 2 ^ 31) (hx : fetch image k = some x) :
    element image k = .ok x := by
  simp only [element, int32_of_lt hk, defined_some, ok_bind, Int.natCast_nonneg, if_true, Int.toNat_natCast, hx]

/-- The arrays after the first `m` pixels. -/
structure Saved (v : Planes) (m : Nat) (s s' : SaveArrays) : Prop where
  r : Fills v.red (fun k => k < m) s.r s'.r
  g : Fills v.green (fun k => k < m) s.g s'.g
  b : Fills v.blue (fun k => k < m) s.b s'.b

private theorem fills_next {v : Nat → Int} {m n : Nat} {b c : Block Int} (hf : Fills v (fun k => k < m) b c)
    (hb : b.length = n) (hm : m < n) : ∃ d, store c m (v m) = some d ∧ Fills v (fun k => k < m + 1) b d := by
  obtain ⟨d, hd, hfill⟩ := fills_store v (b := c) (k := m) (by rw [hf.length]; omega) rfl
  exact ⟨d, hd, (hf.trans hfill).congr fun k => by omega⟩

section

variable {v : Planes} {load : Nat → Nat → Except BmpFault (Int × Int × Int)} {start s : SaveArrays} {i j m : Nat}

/-- The pixels have the values, or they are undefined. -/
def Loads (v : Planes) (w h : Nat) (load : Nat → Nat → Except BmpFault (Int × Int × Int)) : Prop :=
  ∀ i < h, ∀ j < w, load i j = .ok (v.red (i * w + j), v.green (i * w + j), v.blue (i * w + j)) ∨
    load i j = .error .undefined

/-- Some pixel is undefined. -/
def Gap (w h : Nat) (load : Nat → Nat → Except BmpFault (Int × Int × Int)) : Prop :=
  ∃ i < h, ∃ j < w, load i j = .error .undefined

/-- The first `m` pixels have been stored, so none of them is undefined. -/
structure SaveInv (v : Planes) (w h : Nat) (load : Nat → Nat → Except BmpFault (Int × Int × Int))
    (start : SaveArrays) (m : Nat) (s : SaveArrays) : Prop where
  saved : Saved v m start s
  loaded : ∀ i < h, ∀ j < w, i * w + j < m → load i j ≠ .error .undefined

theorem savePixel_spec (hsize : h * w < 2 ^ 31) (hload : Loads v w h load) (hr : start.r.length = h * w)
    (hg : start.g.length = h * w) (hb : start.b.length = h * w) (hi : i < h) (hj : j < w)
    (hs : SaveInv v w h load start (i * w + j) s) :
    (∃ s', savePixel w load i j s = .ok s' ∧ SaveInv v w h load start (i * w + (j + 1)) s') ∨
      ∃ e, savePixel w load i j s = .error e ∧ e = .undefined ∧ Gap w h load := by
  have hcell := row_col_lt hi hj
  have hindex : int32 ((i : Int) * w + j) = some ((i * w + j : Nat) : Int) := by
    rw [← Int.natCast_mul, ← Int.natCast_add, int32_of_lt (by omega)]
  rcases hload i hi j hj with hok | hbad
  · left
    obtain ⟨r, hr, hr'⟩ := fills_next hs.saved.r hr hcell
    obtain ⟨g, hg, hg'⟩ := fills_next hs.saved.g hg hcell
    obtain ⟨b, hb, hb'⟩ := fills_next hs.saved.b hb hcell
    refine ⟨⟨r, g, b⟩, ?_, ⟨hr', hg', hb'⟩, fun i' hi' j' hj' hlt => ?_⟩
    · simp only [savePixel, hindex, hok, defined_some, ok_bind, Int.toNat_natCast, hr, hg, hb]
      rfl
    · by_cases heq : i' * w + j' = i * w + j
      · obtain ⟨rfl, rfl⟩ := row_col_inj hj hj' heq
        rw [hok]
        exact nofun
      · exact hs.loaded i' hi' j' hj' (by omega)
  · right
    refine ⟨.undefined, ?_, rfl, i, hi, j, hj, hbad⟩
    simp only [savePixel, hindex, hbad, defined_some, ok_bind]
    rfl

theorem saveLoops_spec (hsize : h * w < 2 ^ 31) (hload : Loads v w h load) (hr : s.r.length = h * w)
    (hg : s.g.length = h * w) (hb : s.b.length = h * w) :
    (∃ s', tryLoop h (fun i => tryLoop w (savePixel w load i)) s = .ok s' ∧
      SaveInv v w h load s (h * w) s') ∨
    ∃ e, tryLoop h (fun i => tryLoop w (savePixel w load i)) s = .error e ∧ e = .undefined ∧
      Gap w h load := by
  refine tryLoop_spec (fun i => SaveInv v w h load s (i * w)) (fun e : BmpFault => e = .undefined ∧ Gap w h load) h
    ⟨⟨?_, ?_, ?_⟩, fun _ _ _ _ hlt => absurd hlt (by omega)⟩ fun i hi s' hs => ?_
  · exact (fills_none _ _).congr (by simp)
  · exact (fills_none _ _).congr (by simp)
  · exact (fills_none _ _).congr (by simp)
  · have hrow := tryLoop_spec (f := savePixel w load i) (fun j => SaveInv v w h load s (i * w + j))
      (fun e : BmpFault => e = .undefined ∧ Gap w h load) w hs fun j hj s' hs =>
        savePixel_spec hsize hload hr hg hb hi hj hs
    rwa [show i * w + w = (i + 1) * w by rw [Nat.add_mul, Nat.one_mul]] at hrow

/-- The arrays have the values when the file is written, or a pixel is undefined. -/
theorem saveImageBy_spec {a : Abi} (hf : BmpFits w h) (ha : a.allocates (4 * (h * w) * 4)) (byteSwap : Bool)
    (hload : Loads v w h load) :
    (∃ s : SaveArrays, v.InArrays (h * w) s.r s.g s.b ∧ ¬ Gap w h load ∧
      saveImageBy a byteSwap true ⟨true, true, true⟩ w h load = bmpWrite a byteSwap true w h s.r s.g s.b) ∨
    saveImageBy a byteSwap true ⟨true, true, true⟩ w h load = .error .undefined ∧ Gap w h load := by
  have hsize := hf.size
  have hbits : 2 ^ 32 ≤ 2 ^ a.bits := by cases a <;> decide
  have harea : int32 ((w : Int) * h) = some ((h * w : Nat) : Int) := by
    rw [← Int.natCast_mul, Nat.mul_comm, int32_of_lt (by omega)]
  have halloc : callocInts a ((h * w : Nat) : Int) true = calloc (h * w) 0 := by
    have hless : a.allocates (h * w * 4) := by
      unfold Abi.allocates at ha ⊢
      omega
    rw [callocInts, toUnsigned_of_lt (by omega), if_pos ⟨rfl, hless⟩]
  have hloops := saveLoops_spec (s := ⟨calloc (h * w) 0, calloc (h * w) 0, calloc (h * w) 0⟩) (by omega) hload
    (length_calloc _ _) (length_calloc _ _) (length_calloc _ _)
  simp only [saveImageBy, harea, halloc, defined_some, ok_bind, Int.toNat_natCast]
  rcases hloops with ⟨s, hs, hinv⟩ | ⟨e, he, rfl, hgap⟩
  · left
    refine ⟨s, ⟨hinv.saved.r.stored, hinv.saved.g.stored, hinv.saved.b.stored⟩, ?_, ?_⟩
    · rintro ⟨i, hi, j, hj, hbad⟩
      exact hinv.loaded i hi j hj (row_col_lt hi hj) hbad
    · rw [hs, ok_bind]
  · right
    rw [he]
    exact ⟨(rfl), hgap⟩

end

/-- The file of an image whose values are bytes is read as these. -/
theorem bmpWrite_read {a : Abi} (hf : BmpFits w h) (ha : a.allocates (4 * (h * w) * 4)) (byteSwap : Bool)
    {v : Planes} {rarray garray barray : Block Int} (hv : v.InArrays (h * w) rarray garray barray)
    (hbyte : ∀ k < h * w, (byteOf (v.red k)).toNat = v.red k ∧ (byteOf (v.green k)).toNat = v.green k ∧
      (byteOf (v.blue k)).toNat = v.blue k) :
    ∃ file img, bmpWrite a byteSwap true w h rarray garray barray = .ok file ∧
      bmpRead a byteSwap ⟨true, true, true⟩ (some file) = .ok img ∧ img.xsize = w ∧ img.ysize = h ∧
      v.InArrays (h * w) img.rarray img.garray img.barray := by
  obtain ⟨file, hfile, hlen, hread⟩ := bmpWrite_bmpRead hf ha byteSwap hv
  have hneed := needed_lt hf
  obtain ⟨img, himg, hback⟩ := (hread file.length).1 (by omega)
  rw [List.take_length] at himg
  refine ⟨file, img, hfile, himg, hback.sizes.1, hback.sizes.2, fun k hk => ?_, fun k hk => ?_, fun k hk => ?_⟩
  · rw [hback.red k hk, if_neg (by omega), (hbyte k hk).1]
  · rw [hback.green k hk, (hbyte k hk).2.1]
  · rw [hback.blue k hk, (hbyte k hk).2.2]

theorem byteOf_uint8 (x : UInt8) : ((byteOf (x.toNat : Int)).toNat : Int) = x.toNat := by
  have hx := x.toNat_lt
  rw [byteOf_toNat]
  omega

/-! ### Images of bytes -/

/-- The arguments of a `SaveImage` function. -/
inductive ImageSource
  | rgb (image : Block UInt8)
  | gray (image : Block UInt8)
  | gray2 (image : Block UInt8) (P : Nat)
  | planes (R G B : Block UInt8)

def ImageSource.save (src : ImageSource) (a : Abi) (byteSwap fopen : Bool) (allocs : BmpArrays) (W H : Int) :
    Except BmpFault (List UInt8) :=
  match src with
  | rgb image => saveImage a byteSwap fopen allocs image W H
  | gray image => saveImageGray a byteSwap fopen allocs image W H
  | gray2 image P => saveImageGray2 a byteSwap fopen allocs image W H P
  | planes R G B => saveImage3plane a byteSwap fopen allocs R G B W H

/-- The red, the green and the blue byte of the pixel at the row `i` and the column `j`. -/
def ImageSource.pixel (src : ImageSource) (w i j : Nat) : Option UInt8 × Option UInt8 × Option UInt8 :=
  match src with
  | rgb image =>
    (fetch image ((i * w + j) * 3), fetch image ((i * w + j) * 3 + 1), fetch image ((i * w + j) * 3 + 2))
  | gray image => (fetch image (i * w + j), fetch image (i * w + j), fetch image (i * w + j))
  | gray2 image P => (fetch image (i * P + j), fetch image (i * P + j), fetch image (i * P + j))
  | planes R G B => (fetch R (i * w + j), fetch G (i * w + j), fetch B (i * w + j))

/-- The indices in an image with longer rows are in the range of `int`. -/
def ImageSource.InRange (src : ImageSource) (w h : Nat) : Prop :=
  match src with
  | gray2 _ P => h * P + w ≤ 2 ^ 31
  | _ => True

/-- The pixels have the bytes. -/
def ImageSource.Shows (src : ImageSource) (w h : Nat) (r g b : Nat → UInt8) : Prop :=
  ∀ i < h, ∀ j < w, src.pixel w i j = (some (r (i * w + j)), some (g (i * w + j)), some (b (i * w + j)))

section

variable {src : ImageSource} {r g b : Nat → UInt8} {image R G B : Block UInt8} {i j P : Nat}

theorem pitch_lt {h P i j w : Nat} (hr : h * P + w ≤ 2 ^ 31) (hi : i < h) (hj : j < w) : i * P + j < 2 ^ 31 := by
  have := Nat.mul_le_mul_right P (show i + 1 ≤ h by omega)
  rw [Nat.add_mul, Nat.one_mul] at this
  omega

/-- What the loops get for a pixel. -/
def bytePlanes (r g b : Nat → UInt8) : Planes where
  red k := (r k).toNat
  green k := (g k).toNat
  blue k := (b k).toNat

/-- The file of a function whose pixels are the bytes. -/
theorem saveImageBy_read {a : Abi} (hf : BmpFits w h) (ha : a.allocates (4 * (h * w) * 4)) (byteSwap : Bool)
    {load : Nat → Nat → Except BmpFault (Int × Int × Int)}
    (hload : ∀ i < h, ∀ j < w, load i j =
      .ok (((r (i * w + j)).toNat : Int), ((g (i * w + j)).toNat : Int), ((b (i * w + j)).toNat : Int))) :
    ∃ file img, saveImageBy a byteSwap true ⟨true, true, true⟩ w h load = .ok file ∧
      bmpRead a byteSwap ⟨true, true, true⟩ (some file) = .ok img ∧ img.xsize = w ∧ img.ysize = h ∧
      (bytePlanes r g b).InArrays (h * w) img.rarray img.garray img.barray := by
  rcases saveImageBy_spec (v := bytePlanes r g b) hf ha byteSwap fun i hi j hj => .inl (hload i hi j hj) with
    ⟨s, hv, -, hs⟩ | ⟨-, i, hi, j, hj, hbad⟩
  · rw [hs]
    exact bmpWrite_read hf ha byteSwap hv fun k _ => ⟨byteOf_uint8 _, byteOf_uint8 _, byteOf_uint8 _⟩
  · rw [hload i hi j hj] at hbad
    cases hbad

theorem load_rgb (hsize : 4 * (h * w) < 2 ^ 31) (hi : i < h) (hj : j < w)
    (hs : (ImageSource.rgb image).Shows w h r g b) :
    (do
      let r ← element image ((i * w + j) * 3)
      let g ← element image ((i * w + j) * 3 + 1)
      let b ← element image ((i * w + j) * 3 + 2)
      pure ((r.toNat : Int), (g.toNat : Int), (b.toNat : Int)) : Except BmpFault _) =
      .ok (((r (i * w + j)).toNat : Int), ((g (i * w + j)).toNat : Int), ((b (i * w + j)).toNat : Int)) := by
  have hlt := row_col_lt hi hj
  have hp := hs i hi j hj
  simp only [ImageSource.pixel, Prod.mk.injEq] at hp
  have h0 := element_eq (by omega) hp.1
  have h1 := element_eq (by omega) hp.2.1
  have h2 := element_eq (by omega) hp.2.2
  push_cast at h0 h1 h2
  rw [h0, ok_bind, h1, ok_bind, h2, ok_bind]
  rfl

theorem load_gray {k k' : Nat} (hk : k < 2 ^ 31)
    (hp : (fetch image k, fetch image k, fetch image k) = (some (r k'), some (g k'), some (b k'))) :
    (do
      let x ← element image k
      pure ((x.toNat : Int), (x.toNat : Int), (x.toNat : Int)) : Except BmpFault _) =
      .ok (((r k').toNat : Int), ((g k').toNat : Int), ((b k').toNat : Int)) := by
  simp only [Prod.mk.injEq] at hp
  have hg : r k' = g k' := Option.some.inj (hp.1.symm.trans hp.2.1)
  have hb : r k' = b k' := Option.some.inj (hp.1.symm.trans hp.2.2)
  rw [element_eq hk hp.1, ok_bind, ← hg, ← hb]
  rfl

theorem load_planes {k : Nat} (hk : k < 2 ^ 31)
    (hp : (fetch R k, fetch G k, fetch B k) = (some (r k), some (g k), some (b k))) :
    (do
      let r ← element R k
      let g ← element G k
      let b ← element B k
      pure ((r.toNat : Int), (g.toNat : Int), (b.toNat : Int)) : Except BmpFault _) =
      .ok (((r k).toNat : Int), ((g k).toNat : Int), ((b k).toNat : Int)) := by
  simp only [Prod.mk.injEq] at hp
  rw [element_eq hk hp.1, ok_bind, element_eq hk hp.2.1, ok_bind, element_eq hk hp.2.2, ok_bind]
  rfl

end

/-- What the functions save is what `bmp_read` reads. -/
theorem saveImages_read_back {a : Abi} (hf : BmpFits w h) (ha : a.allocates (4 * (h * w) * 4)) (byteSwap : Bool)
    {src : ImageSource} {r g b : Nat → UInt8} (hr : src.InRange w h) (hs : src.Shows w h r g b) :
    ∃ file img, src.save a byteSwap true ⟨true, true, true⟩ w h = .ok file ∧
      bmpRead a byteSwap ⟨true, true, true⟩ (some file) = .ok img ∧ img.xsize = w ∧ img.ysize = h ∧
      (bytePlanes r g b).InArrays (h * w) img.rarray img.garray img.barray := by
  have hsize := hf.size
  cases src with
  | rgb image => exact saveImageBy_read hf ha byteSwap fun i hi j hj => load_rgb hsize hi hj hs
  | gray image =>
    refine saveImageBy_read hf ha byteSwap fun i hi j hj => ?_
    have hlt := row_col_lt hi hj
    rw [← Int.natCast_mul, ← Int.natCast_add]
    exact load_gray (by omega) (hs i hi j hj)
  | gray2 image P =>
    refine saveImageBy_read hf ha byteSwap fun i hi j hj => ?_
    rw [← Int.natCast_mul, ← Int.natCast_add]
    exact load_gray (pitch_lt hr hi hj) (hs i hi j hj)
  | planes R G B =>
    refine saveImageBy_read hf ha byteSwap fun i hi j hj => ?_
    have hlt := row_col_lt hi hj
    rw [← Int.natCast_mul, ← Int.natCast_add]
    exact load_planes (by omega) (hs i hi j hj)

/-- A row of two pixels in an image with rows of three. -/
theorem saveImages_read_back_gray2 : ∃ file img,
    (ImageSource.gray2 [some 9, some 200, none] 3).save .ilp32 true true ⟨true, true, true⟩ 2 1 = .ok file ∧
      bmpRead .ilp32 true ⟨true, true, true⟩ (some file) = .ok img ∧ img.xsize = 2 ∧ img.ysize = 1 ∧
      (bytePlanes (fun k => if k = 0 then 9 else 200) (fun k => if k = 0 then 9 else 200)
        fun k => if k = 0 then 9 else 200).InArrays (1 * 2) img.rarray img.garray img.barray :=
  saveImages_read_back ⟨by decide, by decide, by decide⟩ (by decide) true
    (show 1 * 3 + 2 ≤ 2 ^ 31 by decide) (by unfold ImageSource.Shows; decide)

/-! ### Images of 16 bits -/

/-- The depths of an image. -/
def depthsOf (p : Nat → Nat → UInt16) (w h : Nat) : Set Nat :=
  {x | x ≠ noDepth ∧ ∃ i < h, ∃ j < w, (p i j).toNat = x}

/-- The value that is saved for a depth between the least and the greatest one. -/
def spread (lo hi x : Nat) : Nat := if x = noDepth then 255 else 255 * (x - lo) / (hi - lo)

section

variable {image : Block UInt16} {p : Nat → Nat → UInt16} {i j P m lo hi x : Nat}

theorem spread_le (hx : x ≤ hi) : spread lo hi x ≤ 255 := by
  unfold spread
  by_cases hno : x = noDepth
  · rw [if_pos hno]
  · rw [if_neg hno]
    apply Nat.div_le_of_le_mul
    rw [Nat.mul_comm]
    exact Nat.mul_le_mul_right 255 (by omega)

/-- The bounds of the depths of the first `m` pixels. -/
structure RangeInv (p : Nat → Nat → UInt16) (w h m : Nat) (r : Nat × Nat) : Prop where
  bounds : ∀ i < h, ∀ j < w, i * w + j < m → (p i j).toNat ≠ noDepth → r.1 ≤ (p i j).toNat ∧ (p i j).toNat ≤ r.2
  lo : r.1 = 65535 ∨ r.1 ∈ depthsOf p w h
  hi : r.2 = 0 ∨ r.2 ∈ depthsOf p w h

theorem rangePixel_spec (hP : h * P + w ≤ 2 ^ 31) (hp : ∀ i < h, ∀ j < w, fetch image (i * P + j) = some (p i j))
    (hi : i < h) (hj : j < w) {r : Nat × Nat} (hr : RangeInv p w h (i * w + j) r) :
    ∃ r', rangePixel image P i j r = .ok r' ∧ RangeInv p w h (i * w + (j + 1)) r' := by
  unfold rangePixel
  rw [← Int.natCast_mul, ← Int.natCast_add, element_eq (pitch_lt hP hi hj) (hp i hi j hj), ok_bind]
  refine ⟨_, rfl, fun i' hi' j' hj' hlt hval => ?_, ?_, ?_⟩
  · simp only
    by_cases heq : i' * w + j' = i * w + j
    · obtain ⟨rfl, rfl⟩ := row_col_inj hj hj' heq
      constructor <;> split <;> omega
    · have hold := hr.bounds i' hi' j' hj' (by omega) hval
      constructor <;> split <;> omega
  · simp only
    split
    · rename_i hlt
      exact .inr ⟨hlt.1, i, hi, j, hj, rfl⟩
    · exact hr.lo
  · simp only
    split
    · rename_i hlt
      exact .inr ⟨hlt.1, i, hi, j, hj, rfl⟩
    · exact hr.hi

/-- The first loops find the least and the greatest depth. -/
theorem rangeLoops_spec (hP : h * P + w ≤ 2 ^ 31)
    (hp : ∀ i < h, ∀ j < w, fetch image (i * P + j) = some (p i j)) :
    ∃ lo hi, tryLoop h (fun i => tryLoop w (rangePixel image P i)) (65535, 0) = .ok (lo, hi) ∧
      ((depthsOf p w h).Nonempty → IsLeast (depthsOf p w h) lo ∧ IsGreatest (depthsOf p w h) hi) := by
  obtain ⟨⟨lo, hi⟩, hrun, hr⟩ := tryLoop_ok (f := fun i => tryLoop w (rangePixel image P i)) (s := (65535, 0))
    (fun i => RangeInv p w h (i * w)) h
    ⟨fun _ _ _ _ hlt => absurd hlt (by omega), .inl rfl, .inl rfl⟩ fun i hi r hr => by
      obtain ⟨r', hr', hinv⟩ := tryLoop_ok (fun j => RangeInv p w h (i * w + j)) w hr fun j hj r hr =>
        rangePixel_spec hP hp hi hj hr
      rw [show i * w + w = (i + 1) * w by rw [Nat.add_mul, Nat.one_mul]] at hinv
      exact ⟨r', hr', hinv⟩
  refine ⟨lo, hi, hrun, ?_⟩
  have hbounds : ∀ x ∈ depthsOf p w h, lo ≤ x ∧ x ≤ hi := by
    rintro x ⟨hval, i, hi', j, hj, rfl⟩
    exact hr.bounds i hi' j hj (row_col_lt hi' hj) hval
  rintro ⟨x, hx⟩
  have hxb := hbounds x hx
  have hx16 : x < 65536 := by
    obtain ⟨-, i, -, j, -, rfl⟩ := hx
    exact (p i j).toNat_lt
  refine ⟨⟨?_, fun y hy => (hbounds y hy).1⟩, ⟨?_, fun y hy => (hbounds y hy).2⟩⟩
  · rcases hr.lo with hlo | hlo
    · simp only at hlo
      rwa [show lo = x by omega]
    · exact hlo
  · rcases hr.hi with hhi | hhi
    · simp only at hhi
      rwa [show hi = x by omega]
    · exact hhi

/-- One pixel of the second loops, where the bounds are right. -/
theorem spreadPixel_eq (hP : h * P + w ≤ 2 ^ 31) (hp : ∀ i < h, ∀ j < w, fetch image (i * P + j) = some (p i j))
    (hbounds : ∀ x ∈ depthsOf p w h, lo ≤ x ∧ x ≤ hi) {k : Nat} (hk : k < h) (hj : j < w) :
    spreadPixel image P lo hi k j = if (p k j).toNat ≠ noDepth ∧ lo = hi then .error .undefined
      else .ok ((spread lo hi (p k j).toNat : Int), (spread lo hi (p k j).toNat : Int),
        (spread lo hi (p k j).toNat : Int)) := by
  unfold spreadPixel
  rw [← Int.natCast_mul, ← Int.natCast_add, element_eq (pitch_lt hP hk hj) (hp k hk j hj), ok_bind]
  by_cases hno : (p k j).toNat = noDepth
  · rw [if_pos hno, if_neg (fun h => h.1 hno), spread, if_pos hno]
    rfl
  · rw [if_neg hno]
    have hb := hbounds _ ⟨hno, k, hk, j, hj, rfl⟩
    by_cases heq : lo = hi
    · exact (if_pos (show (hi : Int) - lo = 0 by omega)).trans (if_pos ⟨hno, heq⟩).symm
    · have hdiv : Int.tdiv (255 * ((p k j).toNat - lo)) (hi - lo) = (spread lo hi (p k j).toNat : Nat) := by
        rw [spread, if_neg hno, show (255 : Int) * ((p k j).toNat - lo) = (255 * ((p k j).toNat - lo) : Nat) by omega,
          show (hi : Int) - lo = (hi - lo : Nat) by omega, Int.tdiv_eq_ediv_of_nonneg (by omega), Int.natCast_ediv]
      simp only [hdiv]
      exact (if_neg (show ¬ (hi : Int) - lo = 0 by omega)).trans (if_neg fun h => heq h.2).symm

end

/-- The function divides by zero exactly if the image has one depth only; otherwise the depths are spread over
the range of a byte, and a pixel without depth is white. -/
theorem saveImageGray2U16_spread {a : Abi} (hf : BmpFits w h) (ha : a.allocates (4 * (h * w) * 4))
    (byteSwap : Bool) {image : Block UInt16} {p : Nat → Nat → UInt16} {P : Nat} (hP : h * P + w ≤ 2 ^ 31)
    (hp : ∀ i < h, ∀ j < w, fetch image (i * P + j) = some (p i j)) :
    ((∃ x, depthsOf p w h = {x}) →
      saveImageGray2U16 a byteSwap true ⟨true, true, true⟩ image w h P = .error .undefined) ∧
    (¬ (∃ x, depthsOf p w h = {x}) → ∃ lo hi file img,
      ((depthsOf p w h).Nonempty → IsLeast (depthsOf p w h) lo ∧ IsGreatest (depthsOf p w h) hi) ∧
      saveImageGray2U16 a byteSwap true ⟨true, true, true⟩ image w h P = .ok file ∧
      bmpRead a byteSwap ⟨true, true, true⟩ (some file) = .ok img ∧ img.xsize = w ∧ img.ysize = h ∧
      ∀ i < h, ∀ j < w, ∀ plane ∈ [img.rarray, img.garray, img.barray],
        fetch plane (i * w + j) = some (spread lo hi (p i j).toNat : Int)) := by
  obtain ⟨lo, hi, hrange, hleast⟩ := rangeLoops_spec hP hp
  have hbounds : ∀ x ∈ depthsOf p w h, lo ≤ x ∧ x ≤ hi := fun x hx =>
    ⟨(hleast ⟨x, hx⟩).1.2 hx, (hleast ⟨x, hx⟩).2.2 hx⟩
  have hrun : saveImageGray2U16 a byteSwap true ⟨true, true, true⟩ image w h P =
      saveImageBy a byteSwap true ⟨true, true, true⟩ w h (spreadPixel image P lo hi) := by
    simp only [saveImageGray2U16, Int.toNat_natCast, hrange, ok_bind]
  obtain ⟨f, hvalue⟩ : ∃ f : Nat → Nat, ∀ i, ∀ j < w, f (i * w + j) = spread lo hi (p i j).toNat := by
    refine ⟨fun k => spread lo hi (p (k / w) (k % w)).toNat, fun i j hj => ?_⟩
    obtain ⟨hd, hm⟩ := row_col i hj
    simp only [hd, hm]
  have hloads : Loads ⟨fun k => f k, fun k => f k, fun k => f k⟩ w h (spreadPixel image P lo hi) := by
    intro i hi' j hj
    rw [spreadPixel_eq hP hp hbounds hi' hj, ← hvalue i j hj]
    by_cases hone : (p i j).toNat ≠ noDepth ∧ lo = hi
    · exact .inr (if_pos hone)
    · exact .inl (if_neg hone)
  have hgap : Gap w h (spreadPixel image P lo hi) ↔ ∃ x, depthsOf p w h = {x} := by
    constructor
    · rintro ⟨i, hi', j, hj, hbad⟩
      rw [spreadPixel_eq hP hp hbounds hi' hj] at hbad
      split at hbad
      · rename_i hone
        refine ⟨(p i j).toNat, Set.eq_singleton_iff_unique_mem.2 ⟨⟨hone.1, i, hi', j, hj, rfl⟩, fun x hx => ?_⟩⟩
        have h1 := hbounds x hx
        have h2 := hbounds _ ⟨hone.1, i, hi', j, hj, rfl⟩
        omega
      · cases hbad
    · rintro ⟨x, hx⟩
      have hmem : x ∈ depthsOf p w h := by rw [hx]; rfl
      have hl := hleast ⟨x, hmem⟩
      have h1 : lo = x := by simpa [hx] using hl.1.1
      have h2 : hi = x := by simpa [hx] using hl.2.1
      obtain ⟨hval, i, hi', j, hj, rfl⟩ := hmem
      exact ⟨i, hi', j, hj, by rw [spreadPixel_eq hP hp hbounds hi' hj, if_pos ⟨hval, h1.trans h2.symm⟩]⟩
  rw [hrun]
  rcases saveImageBy_spec hf ha byteSwap hloads with ⟨s, hv, hno, hs⟩ | ⟨hs, hyes⟩
  · refine ⟨fun h' => absurd (hgap.2 h') hno, fun _ => ?_⟩
    have hbyte : ∀ k < h * w, ((byteOf (f k)).toNat : Int) = f k := by
      intro k hk
      obtain ⟨hrow, hcol⟩ := row_lt hk
      have hle : f k ≤ 255 := by
        rw [← Nat.div_add_mod k w, Nat.mul_comm, hvalue _ _ hcol]
        by_cases hval : (p (k / w) (k % w)).toNat = noDepth
        · rw [spread, if_pos hval]
        · exact spread_le (hbounds _ ⟨hval, _, hrow, _, hcol, rfl⟩).2
      rw [byteOf_toNat, Nat.mod_eq_of_lt (by omega)]
    obtain ⟨file, img, hfile, himg, hx, hy, harrays⟩ := bmpWrite_read hf ha byteSwap hv fun k hk =>
      ⟨hbyte k hk, hbyte k hk, hbyte k hk⟩
    refine ⟨lo, hi, file, img, hleast, hs.trans hfile, himg, hx, hy, fun i hi' j hj plane hplane => ?_⟩
    have hcell := row_col_lt hi' hj
    rw [← hvalue i j hj]
    simp only [List.mem_cons, List.not_mem_nil, or_false] at hplane
    rcases hplane with rfl | rfl | rfl
    · exact harrays.red _ hcell
    · exact harrays.green _ hcell
    · exact harrays.blue _ hcell
  · exact ⟨fun _ => hs, fun h' => absurd (hgap.1 hyes) h'⟩

/-- One pixel with a depth, and one without. -/
theorem saveImageGray2U16_spread_oneDepth :
    saveImageGray2U16 .lp64 true true ⟨true, true, true⟩ [some 5, some 32768] 2 1 2 = .error .undefined := by
  refine (saveImageGray2U16_spread (p := fun _ j => if j = 0 then 5 else 32768) (w := 2) (h := 1) (P := 2)
    ⟨by decide, by decide, by decide⟩ (by decide) true (by decide) (by decide)).1
    ⟨5, Set.eq_singleton_iff_unique_mem.2 ⟨⟨by decide, 0, by decide, 0, by decide, rfl⟩, ?_⟩⟩
  rintro x ⟨hval, i, -, j, -, rfl⟩
  by_cases hj : j = 0
  · simp [hj]
  · simp [hj, noDepth] at hval

end Vdsp

import Vdsp.Hdr.Bmp

/-!
# NV21 images (`util.cpp` of the HDR test)

An NV21 image has a byte of luma for each pixel, and behind them a pair of V and U for each square of four
pixels.  `yvu420s_yuv420p` puts U and V into planes of their own, and `yuv420p_yvu420s` takes that back
(`semiplanar_planar`); `save_as_bmp` gives each pixel its U and V, and `yuv2rgb` converts the pixels one after
the other.  Together they map the bytes of an image as they should (`rgbByte_pixel`), unless the index of the
plane of V overflows (`nv21_saved_iff`), and what is saved can be opened again (`openBmpFile_saveAsBmp`).

Widths and heights are `int`s that are not negative, and so are the indexes; what overflows is `none`, as is an
access outside a block.
-/

namespace Vdsp

open Memory

/-! ### The planes -/

/-- `dst[k] = src[j]`; an index that overflows is `none`. -/
def assign (dst : Block UInt8) (k : Option Nat) (src : Block UInt8) (j : Option Nat) : Option (Block UInt8) :=
  (j.bind (fetch src)).bind fun x => k.bind fun k => store dst k x

/-- The body of the loops of `yvu420s_yuv420p`, which go on with `s`. -/
def splitPair (yvu420s : Block UInt8) (yPixNum uvW r c : Nat) (p : Block UInt8 × Nat) :
    Option (Block UInt8 × Nat) :=
  let (yuv420p, s) := p
  (assign yuv420p (intIndex (yPixNum + s)) yvu420s (intIndex (yPixNum + r * uvW + c + 1))).bind fun yuv420p =>
    (assign yuv420p ((intIndex (yPixNum * 5)).bind fun x => intIndex (x / 4 + s)) yvu420s
      (intIndex (yPixNum + r * uvW + c))).map fun yuv420p => (yuv420p, s + 1)

/-- `yvu420s_yuv420p`; `c` goes up by 2. -/
def yvu420sYuv420p (yvu420s : Block UInt8) (width height : Nat) (yuv420p : Block UInt8) :
    Option (Block UInt8) :=
  let uvW := width
  let uvH := height / 2
  (intIndex (width * height)).bind fun yPixNum => (memcpy yuv420p yvu420s yPixNum).bind fun yuv420p =>
    (loop uvH (fun r => loop ((uvW + 1) / 2) fun t => splitPair yvu420s yPixNum uvW r (2 * t))
      (yuv420p, 0)).map Prod.fst

/-- The body of the loops of `yuv420p_yvu420s`, which go on with `uv_ptr`. -/
def mergePair (yuv420p : Block UInt8) (uPtr vPtr s r c : Nat) (p : Block UInt8 × Nat) :
    Option (Block UInt8 × Nat) :=
  let (yvu420s, uvPtr) := p
  (assign yvu420s (some uvPtr) yuv420p ((intIndex (r * s + c)).map (vPtr + ·))).bind fun yvu420s =>
    (assign yvu420s (some (uvPtr + 1)) yuv420p ((intIndex (r * s + c)).map (uPtr + ·))).map fun yvu420s =>
      (yvu420s, uvPtr + 2)

/-- `yuv420p_yvu420s`. -/
def yuv420pYvu420s (yuv420p : Block UInt8) (width height : Nat) (yvu420s : Block UInt8) :
    Option (Block UInt8) :=
  let uvWidth := width / 2
  let uvHeight := height / 2
  (intIndex (width * height)).bind fun pixNum => (memcpy yvu420s yuv420p pixNum).bind fun yvu420s =>
    let uPtr := pixNum
    let vPtr := uPtr + pixNum / 4
    (loop uvHeight (fun r => loop uvWidth fun c => mergePair yuv420p uPtr vPtr uvWidth r c)
      (yvu420s, pixNum)).map Prod.fst

/-! ### The pixels -/

/-- `ISP_CLIP`. -/
def ispClip (val top bot : Int) : Int :=
  let val := if val > top then top else val
  if val < bot then bot else val

/-- The byte of a colour: `x` goes to `tmp_var`, an `int16_t`, and is clipped. -/
def clipByte (x : Int) : UInt8 :=
  let tmpVar := (BitVec.ofInt 16 x).toInt
  .ofNat (toUnsigned 8 (ispClip tmpVar 255 0))

def redVal (y v : UInt8) : UInt8 := clipByte (y.toNat + (((v.toNat * 359 + 128) >>> 8 : Nat) : Int) - 180)

def greenVal (y u v : UInt8) : UInt8 :=
  clipByte (y.toNat - (((u.toNat * 88 + 128) >>> 8 : Nat) : Int)
    - (((v.toNat * 183 + 128) >>> 8 : Nat) : Int) + 136)

def blueVal (y u : UInt8) : UInt8 := clipByte (y.toNat + (((u.toNat * 454 + 128) >>> 8 : Nat) : Int) - 227)

/-- The pointers of `yuv2rgb`, its output, and the offsets in it that have been stored to. -/
structure Yuv2Rgb where
  curY : Nat
  output : Block UInt8
  tempRgb : Nat
  written : List Nat

/-- `*(temp_rgb++) = x`. -/
def Yuv2Rgb.put (s : Yuv2Rgb) (x : UInt8) : Option Yuv2Rgb :=
  (store s.output s.tempRgb x).map fun output =>
    { s with output := output, tempRgb := s.tempRgb + 1, written := s.written ++ [s.tempRgb] }

/-- The body of the loops of `yuv2rgb`. -/
def convertPixel (input : Block UInt8) (curU curV uvWidth iy ix : Nat) (s : Yuv2Rgb) : Option Yuv2Rgb :=
  (fetch input s.curY).bind fun yVal => (intIndex (iy * uvWidth + ix)).bind fun uvPos =>
    (fetch input (curU + uvPos)).bind fun uVal => (fetch input (curV + uvPos)).bind fun vVal =>
      (Yuv2Rgb.put { s with curY := s.curY + 1 } (redVal yVal vVal)).bind fun s =>
        (s.put (greenVal yVal uVal vVal)).bind fun s => s.put (blueVal yVal uVal)

/-- `yuv2rgb`. -/
def yuv2rgb (input output : Block UInt8) (iwidth iheight : Nat) : Option Yuv2Rgb :=
  (intIndex (iwidth * iheight)).bind fun planes =>
    let curU := planes
    let curV := curU + planes
    loop iheight (fun iy => loop iwidth fun ix => convertPixel input curU curV iwidth iy ix) ⟨0, output, 0, []⟩

/-- The body of the loops of `save_as_bmp` and `yuv420tobmp`. -/
def upsamplePixel (pTmp : Block UInt8) (w h i j : Nat) (pYUV : Block UInt8) : Option (Block UInt8) :=
  (assign pYUV (intIndex (i * w + j)) pTmp (intIndex (i * w + j))).bind fun pYUV =>
    (assign pYUV (intIndex (i * w + j + w * h)) pTmp
      ((intIndex (i / 2 * w)).bind fun x => intIndex (x / 2 + j / 2 + w * h))).bind fun pYUV =>
      assign pYUV (intIndex (i * w + j + w * h * 2)) pTmp
        ((intIndex (i / 2 * w)).bind fun x => (intIndex (w * h * 5)).bind fun y =>
          intIndex (x / 2 + j / 2 + y / 4))

def upsample (pTmp : Block UInt8) (w h : Nat) (pYUV : Block UInt8) : Option (Block UInt8) :=
  loop h (fun i => loop w fun j => upsamplePixel pTmp w h i j) pYUV

/-! ### Saving -/

/-- Which of the calls of `malloc` succeed. -/
structure BmpAllocs where
  pYUV : Bool
  pRGB : Bool
  pTmp : Bool

/-- The result of `malloc`; `NULL` is a block without cells. -/
def mallocOrNull (ok : Bool) (n : Nat) : Block UInt8 := if ok then malloc UInt8 n else []

/-- The arguments of `save_bmp`, and the offsets in the image that were stored to. -/
structure BmpCall where
  filename : Block UInt8
  pRGBData : Block UInt8
  width : Nat
  height : Nat
  written : List Nat

/-- `MAX_FILENAME_LENGTH`. -/
def maxFilenameLength : Nat := 0x200

/-- The characters of `.bmp`. -/
def dotBmp : List UInt8 := [0x2e, 0x62, 0x6d, 0x70]

/-- `save_as_bmp` up to the call of `save_bmp`. -/
def saveAsBmpCall (allocs : BmpAllocs) (fileName : List UInt8) (imgData : Block UInt8) (w h : Nat) :
    Option BmpCall :=
  (storeList (malloc UInt8 maxFilenameLength) 0 (fileName ++ dotBmp ++ [0])).bind fun outfile =>
    (intIndex (w * h * 3)).bind fun size =>
      let pYUV := mallocOrNull allocs.pYUV size
      let pRGB := mallocOrNull allocs.pRGB size
      let pTmp := mallocOrNull allocs.pTmp (size / 2)
      (yvu420sYuv420p imgData w h pTmp).bind fun pTmp => (upsample pTmp w h pYUV).bind fun pYUV =>
        (yuv2rgb pYUV pRGB (w % 2 ^ 16) (h % 2 ^ 16)).map fun s =>
          { filename := outfile, pRGBData := s.output, width := w, height := h, written := s.written }

/-- `save_as_bmp`. -/
def saveAsBmp (allocs : BmpAllocs) (fopen : Bool) (fileName : List UInt8) (imgData : Block UInt8) (w h : Nat) :
    Option (Nat × Option BmpFile) :=
  (saveAsBmpCall allocs fileName imgData w h).bind fun call =>
    saveBmp fopen call.pRGBData call.width call.height

/-! ### NV21 and planes -/

/-- A byte of the planes of an NV21 image with `q` pairs: behind the luma there is U, and then V. -/
def planar (a : Nat → UInt8) (q k : Nat) : UInt8 :=
  if k < 4 * q then a k else if k < 5 * q then a (4 * q + 2 * (k - 4 * q) + 1) else a (4 * q + 2 * (k - 5 * q))

/-- A byte of the NV21 image with the given planes. -/
def semiplanar (b : Nat → UInt8) (q k : Nat) : UInt8 :=
  if k < 4 * q then b k
  else if (k - 4 * q) % 2 = 0 then b (5 * q + (k - 4 * q) / 2) else b (4 * q + (k - 4 * q) / 2)

theorem semiplanar_planar {a : Nat → UInt8} {q k : Nat} (hk : k < 6 * q) :
    semiplanar (planar a q) q k = a k := by
  unfold semiplanar
  by_cases hy : k < 4 * q
  · rw [if_pos hy, planar, if_pos hy]
  · rw [if_neg hy]
    by_cases heven : (k - 4 * q) % 2 = 0
    · rw [if_pos heven, planar, if_neg (by omega), if_neg (by omega)]
      congr 1
      omega
    · rw [if_neg heven, planar, if_neg (by omega), if_pos (by omega)]
      congr 1
      omega

variable {d e : Block UInt8} {a v : Nat → UInt8} {m n q j k t : Nat}

private theorem fills_assign (hj : fetch e j = some (v k)) (hk : k < d.length) :
    ∃ c, assign d (some k) e (some j) = some c ∧ Fills v (fun k' => k' = k) d c := by
  obtain ⟨c, hc, hfill⟩ := fills_store v hk rfl
  refine ⟨c, ?_, hfill⟩
  rw [assign, Option.bind_some, hj, Option.bind_some, Option.bind_some, hc]

/-- The pixels of an image with `n` times `m` squares. -/
private theorem area_eq (m n : Nat) : 2 * m * (2 * n) = 4 * (n * m) := by ring

/-- A pair in the row `r` of the pairs. -/
private theorem pair_eq (m r c : Nat) : r * (2 * m) + 2 * c = 2 * (r * m + c) := by ring

/-- `t` pairs of `q` have been split. -/
private def Split (q t k : Nat) : Prop := (k < 4 * q ∨ 4 * q ≤ k ∧ k < 4 * q + t) ∨ 5 * q ≤ k ∧ k < 5 * q + t

private theorem splitPair_spec {r c : Nat} {p : Block UInt8} (h5 : 20 * q < 2 ^ 31) (ht : r * m + c = t)
    (htq : t < q) (hin : ∀ k < 6 * q, fetch e k = some (a k)) (hd : 6 * q ≤ d.length)
    (hp : Fills (planar a q) (Split q t) d p) :
    ∃ p', splitPair e (4 * q) (2 * m) r (2 * c) (p, t) = some (p', t + 1) ∧
      Fills (planar a q) (Split q (t + 1)) d p' := by
  have hpair := pair_eq m r c
  rw [ht] at hpair
  have hlen := hp.length
  obtain ⟨p₁, h₁, f₁⟩ := fills_assign (d := p) (e := e) (v := planar a q) (j := 4 * q + 2 * t + 1)
    (k := 4 * q + t) (by rw [planar, if_neg (by omega), if_pos (by omega), hin _ (by omega)]; congr 2; omega)
    (by omega)
  have hlen₁ := f₁.length
  obtain ⟨p₂, h₂, f₂⟩ := fills_assign (d := p₁) (e := e) (v := planar a q) (j := 4 * q + 2 * t)
    (k := 5 * q + t) (by rw [planar, if_neg (by omega), if_neg (by omega), hin _ (by omega)]; congr 2; omega)
    (by omega)
  refine ⟨p₂, ?_, ((hp.trans f₁).trans f₂).congr fun k => ?_⟩
  · have hu : 4 * q + r * (2 * m) + 2 * c + 1 = 4 * q + 2 * t + 1 := by omega
    have hv : 4 * q + r * (2 * m) + 2 * c = 4 * q + 2 * t := by omega
    have hplane : 4 * q * 5 / 4 = 5 * q := by omega
    simp only [splitPair]
    rw [hu, hv, intIndex_of_lt (show 4 * q + t < 2 ^ 31 by omega),
      intIndex_of_lt (show 4 * q + 2 * t + 1 < 2 ^ 31 by omega), h₁, Option.bind_some,
      intIndex_of_lt (show 4 * q * 5 < 2 ^ 31 by omega), Option.bind_some, hplane,
      intIndex_of_lt (show 5 * q + t < 2 ^ 31 by omega),
        intIndex_of_lt (show 4 * q + 2 * t < 2 ^ 31 by omega), h₂]
    rfl
  · unfold Split
    omega

/-- The planes of an NV21 image. -/
theorem yvu420sYuv420p_eq (h5 : 20 * (n * m) < 2 ^ 31) (hin : ∀ k < 6 * (n * m), fetch e k = some (a k))
    (hd : 6 * (n * m) ≤ d.length) :
    ∃ c, yvu420sYuv420p e (2 * m) (2 * n) d = some c ∧
      Fills (planar a (n * m)) (fun k => k < 6 * (n * m)) d c := by
  obtain ⟨b, hb, hcopy⟩ := fills_memcpy (b := d) (e := e) (v := planar a (n * m)) (n := 4 * (n * m)) (by omega)
    fun k hk => by
      rw [planar, if_pos hk]
      exact hin k (by omega)
  obtain ⟨⟨c, s⟩, hloop, hs, hfill⟩ := loop_rows_invariant (h := n) (w := m) (s := (b, 0))
    (f := fun r t => splitPair e (4 * (n * m)) (2 * m) r (2 * t))
    (fun t p => p.2 = t ∧ Fills (planar a (n * m)) (Split (n * m) t) d p.1)
    ⟨rfl, hcopy.congr fun k => by unfold Split; omega⟩
    fun r hr c hc p hp => by
      obtain ⟨p, s⟩ := p
      obtain ⟨rfl, hfill⟩ := hp
      obtain ⟨p', hp', hfill'⟩ := splitPair_spec h5 rfl (row_col_lt hr hc) hin hd hfill
      exact ⟨_, hp', rfl, hfill'⟩
  refine ⟨c, ?_, hfill.congr fun k => by unfold Split; omega⟩
  have hrows : 2 * n / 2 = n := by omega
  have hcols : (2 * m + 1) / 2 = m := by omega
  simp only [yvu420sYuv420p]
  rw [area_eq, intIndex_of_lt (by omega), Option.bind_some, hb, Option.bind_some, hrows, hcols, hloop]
  rfl

/-- The index of the plane of V overflows. -/
theorem yvu420sYuv420p_none (hm : 0 < m) (hn : 0 < n) (h5 : 2 ^ 31 ≤ 20 * (n * m)) :
    yvu420sYuv420p e (2 * m) (2 * n) d = none := by
  have hrows : 2 * n / 2 = n := by omega
  have hcols : (2 * m + 1) / 2 = m := by omega
  simp only [yvu420sYuv420p]
  rw [area_eq, hrows, hcols]
  by_cases harea : 4 * (n * m) < 2 ^ 31
  · rw [intIndex_of_lt harea, Option.bind_some]
    cases memcpy d e (4 * (n * m)) with
    | none => rfl
    | some b =>
      rw [Option.bind_some, loop_rows_none hn hm, Option.map_none]
      -- whatever the first assignment does, the second one is undefined
      simp only [splitPair, assign, intIndex_of_le (show 2 ^ 31 ≤ 4 * (n * m) * 5 by omega), Option.bind_none,
        Option.bind_fun_none, Option.map_none]
  · rw [intIndex_of_le (by omega), Option.bind_none]

/-- `t` pairs of `q` have been merged. -/
private def Merged (q t k : Nat) : Prop := k < 4 * q + 2 * t

private theorem mergePair_spec {b : Nat → UInt8} {r c : Nat} {p : Block UInt8} (harea : 4 * q < 2 ^ 31)
    (ht : r * m + c = t) (htq : t < q) (hin : ∀ k < 6 * q, fetch e k = some (b k)) (hd : 6 * q ≤ d.length)
    (hp : Fills (semiplanar b q) (Merged q t) d p) :
    ∃ p', mergePair e (4 * q) (5 * q) m r c (p, 4 * q + 2 * t) = some (p', 4 * q + 2 * (t + 1)) ∧
      Fills (semiplanar b q) (Merged q (t + 1)) d p' := by
  have hlen := hp.length
  obtain ⟨p₁, h₁, f₁⟩ := fills_assign (d := p) (e := e) (v := semiplanar b q) (j := 5 * q + t)
    (k := 4 * q + 2 * t) (by
      rw [semiplanar, if_neg (by omega), if_pos (by omega), hin _ (by omega)]
      congr 2
      omega)
    (by omega)
  have hlen₁ := f₁.length
  obtain ⟨p₂, h₂, f₂⟩ := fills_assign (d := p₁) (e := e) (v := semiplanar b q) (j := 4 * q + t)
    (k := 4 * q + 2 * t + 1) (by
      rw [semiplanar, if_neg (by omega), if_neg (by omega), hin _ (by omega)]
      congr 2
      omega)
    (by omega)
  refine ⟨p₂, ?_, ((hp.trans f₁).trans f₂).congr fun k => ?_⟩
  · simp only [mergePair]
    rw [ht, intIndex_of_lt (show t < 2 ^ 31 by omega), Option.map_some, h₁, Option.bind_some,
      Option.map_some, h₂]
    rfl
  · unfold Merged
    omega

/-- The NV21 image with the given planes. -/
theorem yuv420pYvu420s_eq {b : Nat → UInt8} (harea : 4 * (n * m) < 2 ^ 31)
    (hin : ∀ k < 6 * (n * m), fetch e k = some (b k)) (hd : 6 * (n * m) ≤ d.length) :
    ∃ c, yuv420pYvu420s e (2 * m) (2 * n) d = some c ∧
      Fills (semiplanar b (n * m)) (fun k => k < 6 * (n * m)) d c := by
  obtain ⟨c₀, hc₀, hcopy⟩ := fills_memcpy (b := d) (e := e) (v := semiplanar b (n * m)) (n := 4 * (n * m))
    (by omega)
    fun k hk => by
      rw [semiplanar, if_pos hk]
      exact hin k (by omega)
  obtain ⟨⟨c, s⟩, hloop, hs, hfill⟩ := loop_rows_invariant (h := n) (w := m) (s := (c₀, 4 * (n * m)))
    (f := fun r c => mergePair e (4 * (n * m)) (5 * (n * m)) m r c)
    (fun t p => p.2 = 4 * (n * m) + 2 * t ∧ Fills (semiplanar b (n * m)) (Merged (n * m) t) d p.1)
    ⟨rfl, hcopy.congr fun k => by unfold Merged; omega⟩
    fun r hr c hc p hp => by
      obtain ⟨p, s⟩ := p
      obtain ⟨rfl, hfill⟩ := hp
      obtain ⟨p', hp', hfill'⟩ := mergePair_spec harea rfl (row_col_lt hr hc) hin hd hfill
      exact ⟨_, hp', rfl, hfill'⟩
  refine ⟨c, ?_, hfill.congr fun k => by unfold Merged; omega⟩
  have hrows : 2 * n / 2 = n := by omega
  have hcols : 2 * m / 2 = m := by omega
  have hplane : 4 * (n * m) + 4 * (n * m) / 4 = 5 * (n * m) := by omega
  simp only [yuv420pYvu420s]
  rw [area_eq, intIndex_of_lt harea, Option.bind_some, hc₀, Option.bind_some, hrows, hcols, hplane, hloop]
  rfl

/-! ### A pair for each pixel -/

/-- The pair of the `p`-th pixel, of those of an image with `2 * m` columns. -/
def pairOfPixel (m p : Nat) : Nat := p / (2 * m) / 2 * m + p % (2 * m) / 2

/-- A byte of the three planes that `yuv2rgb` converts. -/
def upsampled (b : Nat → UInt8) (m q k : Nat) : UInt8 :=
  if k < 4 * q then b k
  else if k < 8 * q then b (4 * q + pairOfPixel m (k - 4 * q)) else b (5 * q + pairOfPixel m (k - 8 * q))

private theorem pairOfPixel_eq {i : Nat} (hj : j < 2 * m) :
    pairOfPixel m (i * (2 * m) + j) = i / 2 * m + j / 2 := by
  obtain ⟨hdiv, hmod⟩ := row_col i hj
  rw [pairOfPixel, hdiv, hmod]

private theorem upsamplePixel_spec {b : Nat → UInt8} {i : Nat} {p : Block UInt8} (h5 : 20 * (n * m) < 2 ^ 31)
    (hi : i < 2 * n) (hj : j < 2 * m) (hin : ∀ k < 6 * (n * m), fetch e k = some (b k))
    (hp : 12 * (n * m) ≤ p.length) :
    ∃ c, upsamplePixel e (2 * m) (2 * n) i j p = some c ∧ Fills (upsampled b m (n * m))
      (fun k => (k = i * (2 * m) + j ∨ k = i * (2 * m) + j + 4 * (n * m)) ∨
        k = i * (2 * m) + j + 8 * (n * m)) p c := by
  have hpair := pairOfPixel_eq (m := m) (i := i) hj
  have hpos := row_col_lt hi hj
  have harea : 2 * n * (2 * m) = 4 * (n * m) := by ring
  rw [harea] at hpos
  have hchroma : i / 2 * m + j / 2 < n * m := row_col_lt (by omega) (by omega)
  have hhalf : i / 2 * (2 * m) = 2 * (i / 2 * m) := by ring
  unfold upsamplePixel
  rw [area_eq, hhalf]
  generalize i * (2 * m) + j = pos at *
  obtain ⟨c₁, h₁, f₁⟩ := fills_assign (d := p) (e := e) (v := upsampled b m (n * m)) (j := pos) (k := pos)
    (by rw [upsampled, if_pos hpos]; exact hin _ (by omega)) (by omega)
  have l₁ := f₁.length
  obtain ⟨c₂, h₂, f₂⟩ := fills_assign (d := c₁) (e := e) (v := upsampled b m (n * m))
    (j := i / 2 * m + j / 2 + 4 * (n * m)) (k := pos + 4 * (n * m))
    (by
      rw [upsampled, if_neg (by omega), if_pos (by omega), Nat.add_sub_cancel, hpair, Nat.add_comm]
      exact hin _ (by omega))
    (by omega)
  have l₂ := f₂.length
  obtain ⟨c₃, h₃, f₃⟩ := fills_assign (d := c₂) (e := e) (v := upsampled b m (n * m))
    (j := i / 2 * m + j / 2 + 5 * (n * m)) (k := pos + 8 * (n * m))
    (by
      rw [upsampled, if_neg (by omega), if_neg (by omega), Nat.add_sub_cancel, hpair, Nat.add_comm]
      exact hin _ (by omega))
    (by omega)
  refine ⟨c₃, ?_, (f₁.trans f₂).trans f₃⟩
  have hrow : 2 * (i / 2 * m) / 2 = i / 2 * m := by omega
  have hplane : 4 * (n * m) * 5 / 4 = 5 * (n * m) := by omega
  have hlast : pos + 4 * (n * m) * 2 = pos + 8 * (n * m) := by omega
  rw [intIndex_of_lt (show pos < 2 ^ 31 by omega), h₁, Option.bind_some,
    intIndex_of_lt (show pos + 4 * (n * m) < 2 ^ 31 by omega),
    intIndex_of_lt (show 2 * (i / 2 * m) < 2 ^ 31 by omega), Option.bind_some, hrow,
    intIndex_of_lt (show i / 2 * m + j / 2 + 4 * (n * m) < 2 ^ 31 by omega), h₂, Option.bind_some, hlast,
    intIndex_of_lt (show pos + 8 * (n * m) < 2 ^ 31 by omega), Option.bind_some,
    intIndex_of_lt (show 4 * (n * m) * 5 < 2 ^ 31 by omega), Option.bind_some, hrow, hplane,
    intIndex_of_lt (show i / 2 * m + j / 2 + 5 * (n * m) < 2 ^ 31 by omega), h₃]

private theorem mem_pixel (m n p : Nat) : p < 4 * (n * m) ↔ ∃ i < 2 * n, ∃ j < 2 * m, p = i * (2 * m) + j := by
  have harea : 2 * n * (2 * m) = 4 * (n * m) := by ring
  rw [← harea]
  constructor
  · intro hp
    obtain ⟨hrow, hcol⟩ := row_lt hp
    exact ⟨p / (2 * m), hrow, p % (2 * m), hcol, by rw [Nat.mul_comm, Nat.div_add_mod]⟩
  · rintro ⟨i, hi, j, hj, rfl⟩
    exact row_col_lt hi hj

/-- The planes with a pair for each pixel. -/
theorem upsample_eq {b : Nat → UInt8} (h5 : 20 * (n * m) < 2 ^ 31)
    (hin : ∀ k < 6 * (n * m), fetch e k = some (b k))
    (hd : 12 * (n * m) ≤ d.length) :
    ∃ c, upsample e (2 * m) (2 * n) d = some c ∧
      Fills (upsampled b m (n * m)) (fun k => k < 12 * (n * m)) d c := by
  obtain ⟨c, hc, hfill⟩ := fills_rows (f := fun i j => upsamplePixel e (2 * m) (2 * n) i j) d
    fun i hi j hj c hlen => upsamplePixel_spec h5 hi hj hin (by omega)
  refine ⟨c, hc, hfill.congr fun k => ?_⟩
  constructor
  · intro hk
    -- the plane of `k`, and the pixel in it
    obtain ⟨p, hp, hplane⟩ : ∃ p < 4 * (n * m), (k = p ∨ k = p + 4 * (n * m)) ∨ k = p + 8 * (n * m) := by
      by_cases h1 : k < 4 * (n * m)
      · exact ⟨k, h1, .inl (.inl rfl)⟩
      · by_cases h2 : k < 8 * (n * m)
        · exact ⟨k - 4 * (n * m), by omega, .inl (.inr (by omega))⟩
        · exact ⟨k - 8 * (n * m), by omega, .inr (by omega)⟩
    obtain ⟨i, hi, j, hj, rfl⟩ := (mem_pixel m n p).1 hp
    exact ⟨i, hi, j, hj, hplane⟩
  · rintro ⟨i, hi, j, hj, hplane⟩
    have hp := (mem_pixel m n _).2 ⟨i, hi, j, hj, rfl⟩
    omega

/-! ### The conversion -/

/-- A value that fits an `int16_t` is clipped to a byte. -/
theorem clipByte_toNat {x : Int} (hlo : -2 ^ 15 ≤ x) (hhi : x < 2 ^ 15) :
    ((clipByte x).toNat : Int) = max 0 (min 255 x) := by
  have hvar : (BitVec.ofInt 16 x).toInt = x := BitVec.toInt_ofInt_eq_self (by decide) hlo hhi
  have hclip : ispClip x 255 0 = max 0 (min 255 x) := by
    dsimp only [ispClip]
    split <;> split <;> omega
  obtain ⟨k, hk⟩ := Int.eq_ofNat_of_zero_le (show 0 ≤ max 0 (min 255 x) by omega)
  have hbyte : k < 2 ^ 8 := by omega
  rw [clipByte, hvar, hclip, hk, toUnsigned_of_lt hbyte, UInt8.toNat_ofNat_of_lt' hbyte]

/-- The colours of a pixel: nothing is lost in `tmp_var`. -/
theorem rgb_toNat (y u v : UInt8) :
    ((redVal y v).toNat : Int) =
        max 0 (min 255 ((y.toNat : Int) + ((v.toNat * 359 + 128) / 2 ^ 8 : Nat) - 180)) ∧
      ((greenVal y u v).toNat : Int) =
        max 0 (min 255 ((y.toNat : Int) - ((u.toNat * 88 + 128) / 2 ^ 8 : Nat)
          - ((v.toNat * 183 + 128) / 2 ^ 8 : Nat) + 136)) ∧
      ((blueVal y u).toNat : Int) =
        max 0 (min 255 ((y.toNat : Int) + ((u.toNat * 454 + 128) / 2 ^ 8 : Nat) - 227)) := by
  have hy := y.toNat_lt
  have hu := u.toNat_lt
  have hv := v.toNat_lt
  refine ⟨?_, ?_, ?_⟩
  · rw [redVal, Nat.shiftRight_eq_div_pow, clipByte_toNat (by omega) (by omega)]
  · rw [greenVal, Nat.shiftRight_eq_div_pow, Nat.shiftRight_eq_div_pow, clipByte_toNat (by omega) (by omega)]
  · rw [blueVal, Nat.shiftRight_eq_div_pow, clipByte_toNat (by omega) (by omega)]

/-- A byte of the image that `yuv2rgb` makes of three planes of `N` bytes. -/
def rgbByte (c : Nat → UInt8) (N k : Nat) : UInt8 :=
  if k % 3 = 0 then redVal (c (k / 3)) (c (2 * N + k / 3))
  else if k % 3 = 1 then greenVal (c (k / 3)) (c (N + k / 3)) (c (2 * N + k / 3))
  else blueVal (c (k / 3)) (c (N + k / 3))

/-- The first `t` bytes are written, one after the other. -/
private structure Emitted (v : Nat → UInt8) (d : Block UInt8) (t : Nat) (s : Yuv2Rgb) : Prop where
  tempRgb : s.tempRgb = t
  written : s.written = List.range t
  output : Fills v (fun k => k < t) d s.output

variable {s : Yuv2Rgb}

private theorem Emitted.put {x : UInt8} (hs : Emitted v d t s) (ht : t < d.length) (hx : x = v t) :
    ∃ s', s.put x = some s' ∧ s'.curY = s.curY ∧ Emitted v d (t + 1) s' := by
  obtain ⟨c, hc, hfill⟩ := fills_store v (b := s.output) (k := t) (by rw [hs.output.length]; exact ht) hx
  refine ⟨{ s with output := c, tempRgb := s.tempRgb + 1, written := s.written ++ [s.tempRgb] }, ?_,
    rfl, ?_, ?_, ?_⟩
  · rw [Yuv2Rgb.put, hs.tempRgb, hc]
    rfl
  · show s.tempRgb + 1 = t + 1
    rw [hs.tempRgb]
  · show s.written ++ [s.tempRgb] = _
    rw [hs.written, hs.tempRgb, List.range_succ]
  · exact (hs.output.trans hfill).congr fun k => by omega

private theorem convertPixel_spec {c : Nat → UInt8} {N W iy ix : Nat}
    (hN : 3 * N < 2 ^ 31) (ht : iy * W + ix = t) (htN : t < N)
    (hin : ∀ k < 3 * N, fetch e k = some (c k)) (hd : 3 * N ≤ d.length) (hcur : s.curY = t)
    (hs : Emitted (rgbByte c N) d (3 * t) s) :
    ∃ s', convertPixel e N (N + N) W iy ix s = some s' ∧ s'.curY = t + 1 ∧
      Emitted (rgbByte c N) d (3 * (t + 1)) s' := by
  have hdiv : 3 * t / 3 = t ∧ (3 * t + 1) / 3 = t ∧ (3 * t + 1 + 1) / 3 = t := by omega
  have hmod : 3 * t % 3 = 0 ∧ (3 * t + 1) % 3 = 1 ∧ (3 * t + 1 + 1) % 3 = 2 := by omega
  have htwice : N + N + t = 2 * N + t := by omega
  obtain ⟨s₁, h₁, hc₁, w₁⟩ := Emitted.put (s := { s with curY := t + 1 }) (x := redVal (c t) (c (2 * N + t)))
    ⟨hs.tempRgb, hs.written, hs.output⟩ (by omega) (by rw [rgbByte, if_pos hmod.1, hdiv.1])
  obtain ⟨s₂, h₂, hc₂, w₂⟩ := w₁.put (x := greenVal (c t) (c (N + t)) (c (2 * N + t))) (by omega)
    (by rw [rgbByte, if_neg (by omega), if_pos hmod.2.1, hdiv.2.1])
  obtain ⟨s₃, h₃, hc₃, w₃⟩ := w₂.put (x := blueVal (c t) (c (N + t))) (by omega)
    (by rw [rgbByte, if_neg (by omega), if_neg (by omega), hdiv.2.2])
  refine ⟨s₃, ?_, ?_, w₃⟩
  · rw [convertPixel, hcur, hin _ (by omega), Option.bind_some, ht, intIndex_of_lt (by omega), Option.bind_some,
      hin _ (by omega), Option.bind_some, htwice, hin _ (by omega), Option.bind_some, h₁, Option.bind_some, h₂,
      Option.bind_some, h₃]
  · rw [hc₃, hc₂, hc₁]

/-- Every byte of the image is written once. -/
theorem yuv2rgb_eq {c : Nat → UInt8} {W H : Nat} (hN : 3 * (H * W) < 2 ^ 31)
    (hin : ∀ k < 3 * (H * W), fetch e k = some (c k)) (hd : 3 * (H * W) ≤ d.length) :
    ∃ s, yuv2rgb e d W H = some s ∧ s.written = List.range (3 * (H * W)) ∧
      Fills (rgbByte c (H * W)) (fun k => k < 3 * (H * W)) d s.output := by
  obtain ⟨s, hs, hcur, hw⟩ := loop_rows_invariant (h := H) (w := W) (s := (⟨0, d, 0, []⟩ : Yuv2Rgb))
    (f := fun iy ix => convertPixel e (H * W) (H * W + H * W) W iy ix)
    (fun t s => s.curY = t ∧ Emitted (rgbByte c (H * W)) d (3 * t) s)
    ⟨rfl, rfl, rfl, (fills_none _ d).congr fun k => by simp⟩
    fun iy hiy ix hix s hs => convertPixel_spec hN rfl (row_col_lt hiy hix) hin hd hs.1 hs.2
  refine ⟨s, ?_, hw.written, hw.output⟩
  rw [yuv2rgb, Nat.mul_comm W, intIndex_of_lt (by omega), Option.bind_some]
  exact hs

/-! ### What is saved -/

/-- The image that `save_bmp` gets: each byte is written once, and the pixel in the row `i` and the column `j`
is converted from its luma and from the pair of its square. -/
structure Converts (image fileName : List UInt8) (w h : Nat) (call : BmpCall) : Prop where
  filename : Holds call.filename (fileName ++ dotBmp ++ [0])
  width : call.width = w
  height : call.height = h
  length : call.pRGBData.length = w * h * 3
  once : call.written.Perm (List.range (w * h * 3))
  pixel : ∀ i < h, ∀ j < w, ∃ y v u,
    image[i * w + j]? = some y ∧ image[w * h + i / 2 * w + 2 * (j / 2)]? = some v ∧
      image[w * h + i / 2 * w + 2 * (j / 2) + 1]? = some u ∧
      fetch call.pRGBData ((i * w + j) * 3) = some (redVal y v) ∧
      fetch call.pRGBData ((i * w + j) * 3 + 1) = some (greenVal y u v) ∧
      fetch call.pRGBData ((i * w + j) * 3 + 2) = some (blueVal y u)

/-- `save_as_bmp` calls `save_bmp`, with this image. -/
def SavesConverted (image fileName : List UInt8) (w h : Nat) (r : Option BmpCall) : Prop :=
  ∃ call, r = some call ∧ Converts image fileName w h call

/-- An image comes back from its planes, whatever was in the buffers. -/
def Nv21RoundTrips (image : List UInt8) (w h : Nat) : Prop :=
  ∀ yuv420p yvu420s : Block UInt8, yuv420p.length = w * h * 3 / 2 → yvu420s.length = w * h * 3 / 2 →
    ((yvu420sYuv420p (image.map some) w h yuv420p).bind fun p => yuv420pYvu420s p w h yvu420s) =
      some (image.map some)

private theorem length_mallocOrNull {ok : Bool} (h : t = 0 ∨ ok = true) : (mallocOrNull ok t).length = t := by
  cases ok with
  | true => exact length_malloc t
  | false =>
    have h0 : t = 0 := h.resolve_right (by decide)
    rw [h0]
    rfl

/-- The image that is handed to `save_bmp`, by the byte. -/
theorem saveAsBmpCall_eq {allocs : BmpAllocs} {fileName : List UInt8} {imgData : Block UInt8}
    (hname : fileName.length + 5 ≤ maxFilenameLength) (hw : 2 * m < 2 ^ 16) (hh : 2 * n < 2 ^ 16)
    (h5 : 20 * (n * m) < 2 ^ 31) (hin : ∀ k < 6 * (n * m), fetch imgData k = some (a k))
    (hallocs : n * m = 0 ∨ (allocs.pYUV = true ∧ allocs.pRGB = true ∧ allocs.pTmp = true)) :
    ∃ call, saveAsBmpCall allocs fileName imgData (2 * m) (2 * n) = some call ∧
      Holds call.filename (fileName ++ dotBmp ++ [0]) ∧ call.width = 2 * m ∧ call.height = 2 * n ∧
      call.pRGBData.length = 12 * (n * m) ∧ call.written = List.range (12 * (n * m)) ∧
      ∀ k < 12 * (n * m), fetch call.pRGBData k =
        some (rgbByte (upsampled (planar a (n * m)) m (n * m)) (4 * (n * m)) k) := by
  obtain ⟨outfile, hout, -, hholds, -⟩ := storeList_eq (b := malloc UInt8 maxFilenameLength) (k := 0)
    (l := fileName ++ dotBmp ++ [0]) (by
      rw [length_malloc, List.length_append, List.length_append]
      show 0 + (fileName.length + 4 + 1) ≤ _
      omega)
  have hsize : 4 * (n * m) * 3 = 12 * (n * m) := by omega
  have hhalf : 12 * (n * m) / 2 = 6 * (n * m) := by omega
  have hlen : ∀ {ok : Bool} {t : Nat}, (n * m = 0 → t = 0) → (n * m ≠ 0 → ok = true) →
      (mallocOrNull ok t).length = t := by
    intro ok t h0 h1
    refine length_mallocOrNull ?_
    by_cases h : n * m = 0
    · exact .inl (h0 h)
    · exact .inr (h1 h)
  have htmp : (mallocOrNull allocs.pTmp (6 * (n * m))).length = 6 * (n * m) :=
    hlen (fun h => by rw [h]) fun h => (hallocs.resolve_left h).2.2
  have hyuv : (mallocOrNull allocs.pYUV (12 * (n * m))).length = 12 * (n * m) :=
    hlen (fun h => by rw [h]) fun h => (hallocs.resolve_left h).1
  have hrgb : (mallocOrNull allocs.pRGB (12 * (n * m))).length = 12 * (n * m) :=
    hlen (fun h => by rw [h]) fun h => (hallocs.resolve_left h).2.1
  obtain ⟨pTmp, hp, ftmp⟩ := yvu420sYuv420p_eq (d := mallocOrNull allocs.pTmp (6 * (n * m))) h5 hin (by omega)
  obtain ⟨pYUV, hy, fyuv⟩ := upsample_eq (d := mallocOrNull allocs.pYUV (12 * (n * m))) h5
    ftmp.stored (by omega)
  have hpixels : 2 * n * (2 * m) = 4 * (n * m) := by ring
  obtain ⟨s, hs, hwritten, frgb⟩ := yuv2rgb_eq (W := 2 * m) (H := 2 * n) (e := pYUV)
    (d := mallocOrNull allocs.pRGB (12 * (n * m)))
    (c := upsampled (planar a (n * m)) m (n * m)) (by omega) (fun k hk => fyuv.stored k (by omega)) (by omega)
  rw [hpixels] at hwritten frgb
  have hbytes : 3 * (4 * (n * m)) = 12 * (n * m) := by omega
  refine ⟨⟨outfile, s.output, 2 * m, 2 * n, s.written⟩, ?_, fun i x hx => ?_, rfl, rfl, ?_, ?_, fun k hk => ?_⟩
  · rw [saveAsBmpCall, hout, Option.bind_some, area_eq, hsize, intIndex_of_lt (by omega), Option.bind_some]
    dsimp only
    rw [hhalf, hp, Option.bind_some, hy, Option.bind_some, Nat.mod_eq_of_lt hw, Nat.mod_eq_of_lt hh, hs]
    rfl
  · have := hholds i x hx
    rwa [Nat.zero_add] at this
  · rw [frgb.length, hrgb]
  · rw [hwritten, hbytes]
  · exact frgb.stored k (by omega)

/-- The three bytes that `yuv2rgb` converts for the pixel `p`. -/
private theorem upsampled_planar {p : Nat} (hp : p < 4 * q) (hpair : pairOfPixel m p < q) :
    upsampled (planar a q) m q p = a p ∧
      upsampled (planar a q) m q (4 * q + p) = a (4 * q + 2 * pairOfPixel m p + 1) ∧
      upsampled (planar a q) m q (2 * (4 * q) + p) = a (4 * q + 2 * pairOfPixel m p) := by
  refine ⟨?_, ?_, ?_⟩
  · rw [upsampled, if_pos hp, planar, if_pos hp]
  · have hsub : 4 * q + p - 4 * q = p := by omega
    rw [upsampled, if_neg (by omega), if_pos (by omega), hsub, planar, if_neg (by omega), if_pos (by omega)]
    congr 3
    omega
  · have hsub : 2 * (4 * q) + p - 8 * q = p := by omega
    rw [upsampled, if_neg (by omega), if_neg (by omega), hsub, planar, if_neg (by omega), if_neg (by omega)]
    congr 2
    omega

/-- The bytes of a pixel are the conversion of its own luma and of the pair of its square. -/
private theorem rgbByte_pixel {i : Nat} (hi : i < 2 * n) (hj : j < 2 * m) :
    let pos := i * (2 * m) + j
    let pair := 4 * (n * m) + i / 2 * (2 * m) + 2 * (j / 2)
    let rgb := rgbByte (upsampled (planar a (n * m)) m (n * m)) (4 * (n * m))
    rgb (pos * 3) = redVal (a pos) (a pair) ∧ rgb (pos * 3 + 1) = greenVal (a pos) (a (pair + 1)) (a pair) ∧
      rgb (pos * 3 + 2) = blueVal (a pos) (a (pair + 1)) := by
  have hpair := pairOfPixel_eq (m := m) (i := i) hj
  have hpos := (mem_pixel m n _).2 ⟨i, hi, j, hj, rfl⟩
  have hlt : pairOfPixel m (i * (2 * m) + j) < n * m := by
    rw [hpair]
    exact row_col_lt (by omega) (by omega)
  have hindex : 4 * (n * m) + 2 * pairOfPixel m (i * (2 * m) + j) =
      4 * (n * m) + i / 2 * (2 * m) + 2 * (j / 2) := by
    rw [hpair]
    ring
  obtain ⟨hy, hu, hv⟩ := upsampled_planar (a := a) hpos hlt
  rw [hindex] at hu hv
  generalize i * (2 * m) + j = pos at *
  have hdiv : pos * 3 / 3 = pos ∧ (pos * 3 + 1) / 3 = pos ∧ (pos * 3 + 2) / 3 = pos := by omega
  refine ⟨?_, ?_, ?_⟩
  · rw [rgbByte, if_pos (by omega), hdiv.1, hy, hv]
  · rw [rgbByte, if_neg (by omega), if_pos (by omega), hdiv.2.1, hy, hu, hv]
  · rw [rgbByte, if_neg (by omega), if_neg (by omega), hdiv.2.2, hy, hu]

/-! ### Without memory -/

private theorem store_null (k : Nat) (x : UInt8) : store [] k x = none := if_neg (Nat.not_lt_zero k)

private theorem assign_null (k : Option Nat) (j : Option Nat) : assign [] k e j = none := by
  simp only [assign, store_null, Option.bind_fun_none]

private theorem yvu420sYuv420p_null (hq : 0 < n * m) (harea : 4 * (n * m) < 2 ^ 31) :
    yvu420sYuv420p e (2 * m) (2 * n) [] = none := by
  simp only [yvu420sYuv420p]
  rw [area_eq, intIndex_of_lt harea, Option.bind_some, memcpy_none (by rw [List.length_nil]; omega),
    Option.bind_none]

private theorem upsample_null (hm : 0 < m) (hn : 0 < n) : upsample e (2 * m) (2 * n) [] = none := by
  refine loop_rows_none (by omega) (by omega) ?_
  simp only [upsamplePixel, assign_null, Option.bind_none]

private theorem yuv2rgb_null {W H : Nat} (hW : 0 < W) (hH : 0 < H) : yuv2rgb e [] W H = none := by
  have hput : ∀ s x, s.output = [] → Yuv2Rgb.put s x = none := by
    intro s x hs
    rw [Yuv2Rgb.put, hs, store_null, Option.map_none]
  unfold yuv2rgb
  refine Option.bind_eq_none_iff.2 fun planes _ => loop_rows_none hH hW ?_
  simp only [convertPixel, hput, Option.bind_none, Option.bind_fun_none]

/-- Otherwise `save_bmp` is not reached. -/
theorem saveAsBmpCall_none {allocs : BmpAllocs} {fileName : List UInt8} {imgData : Block UInt8}
    (hw : 2 * m < 2 ^ 16) (hh : 2 * n < 2 ^ 16) (hsize : 12 * (n * m) < 2 ^ 31)
    (h : ¬ (fileName.length + 5 ≤ maxFilenameLength ∧ 20 * (n * m) < 2 ^ 31 ∧
      (n * m = 0 ∨ (allocs.pYUV = true ∧ allocs.pRGB = true ∧ allocs.pTmp = true)))) :
    saveAsBmpCall allocs fileName imgData (2 * m) (2 * n) = none := by
  unfold saveAsBmpCall
  by_cases hname : fileName.length + 5 ≤ maxFilenameLength
  · refine Option.bind_eq_none_iff.2 fun outfile _ => Option.bind_eq_none_iff.2 fun size _ => ?_
    dsimp only
    have hpos : 0 < n * m := by
      by_contra h0
      exact h ⟨hname, by omega, .inl (by omega)⟩
    have hm : 0 < m := Nat.pos_of_mul_pos_left hpos
    have hn : 0 < n := Nat.pos_of_mul_pos_right hpos
    by_cases h5 : 20 * (n * m) < 2 ^ 31
    · have hfail : allocs.pTmp = false ∨ allocs.pYUV = false ∨ allocs.pRGB = false := by
        by_contra hok
        simp only [not_or, Bool.not_eq_false] at hok
        exact h ⟨hname, h5, .inr ⟨hok.2.1, hok.2.2, hok.1⟩⟩
      rcases hfail with htmp | hyuv | hrgb
      · rw [htmp, mallocOrNull, if_neg (by decide), yvu420sYuv420p_null hpos (by omega), Option.bind_none]
      · refine Option.bind_eq_none_iff.2 fun pTmp _ => ?_
        rw [hyuv, mallocOrNull, if_neg (by decide), upsample_null hm hn, Option.bind_none]
      · refine Option.bind_eq_none_iff.2 fun pTmp _ => Option.bind_eq_none_iff.2 fun pYUV _ => ?_
        rw [hrgb, mallocOrNull, if_neg (by decide), Nat.mod_eq_of_lt hw, Nat.mod_eq_of_lt hh,
          yuv2rgb_null (by omega) (by omega), Option.map_none]
    · rw [yvu420sYuv420p_none hm hn (by omega), Option.bind_none]
  · rw [storeList_none ?_ (by simp), Option.bind_none]
    rw [length_malloc, List.length_append, List.length_append]
    show _ < 0 + (fileName.length + 4 + 1)
    omega

/-! ### Which images are saved -/

private theorem nv21_length (m n : Nat) : 2 * m * (2 * n) * 3 / 2 = 6 * (n * m) := by
  rw [area_eq]
  omega

private theorem savesConverted_iff {allocs : BmpAllocs} {fileName image : List UInt8} (hw : 2 * m < 2 ^ 16)
    (hh : 2 * n < 2 ^ 16) (hsize : 12 * (n * m) < 2 ^ 31) (hlen : image.length = 6 * (n * m)) :
    SavesConverted image fileName (2 * m) (2 * n)
        (saveAsBmpCall allocs fileName (image.map some) (2 * m) (2 * n)) ↔
      fileName.length + 5 ≤ maxFilenameLength ∧ 20 * (n * m) < 2 ^ 31 ∧
        (n * m = 0 ∨ (allocs.pYUV = true ∧ allocs.pRGB = true ∧ allocs.pTmp = true)) := by
  constructor
  · rintro ⟨call, hcall, -⟩
    by_contra h
    rw [saveAsBmpCall_none hw hh hsize h] at hcall
    cases hcall
  · rintro ⟨hname, h5, hallocs⟩
    obtain ⟨call, hcall, hfile, hwidth, hheight, hbytes, hwritten, hload⟩ :=
      saveAsBmpCall_eq hname hw hh h5 (fun k hk => fetch_map_getD 0 (hlen ▸ hk)) hallocs
    have hrgb : 2 * m * (2 * n) * 3 = 12 * (n * m) := by
      rw [area_eq]
      omega
    refine ⟨call, hcall, hfile, hwidth, hheight, by rw [hbytes, hrgb], by rw [hwritten, hrgb],
      fun i hi j hj => ?_⟩
    have hpos := (mem_pixel m n _).2 ⟨i, hi, j, hj, rfl⟩
    have hpair : i / 2 * m + j / 2 < n * m := row_col_lt (by omega) (by omega)
    have hindex : i / 2 * (2 * m) + 2 * (j / 2) = 2 * (i / 2 * m + j / 2) := by ring
    obtain ⟨hred, hgreen, hblue⟩ := rgbByte_pixel (a := fun k => image.getD k 0) hi hj
    have himage : ∀ k < 6 * (n * m), image[k]? = some (image.getD k 0) := by
      intro k hk
      rw [List.getD_eq_getElem?_getD, List.getElem?_eq_getElem (by omega), Option.getD_some]
    rw [area_eq]
    refine ⟨_, _, _, himage _ (by omega), himage _ (by omega), himage _ (by omega), ?_, ?_, ?_⟩
    · rw [hload _ (by omega), hred]
    · rw [hload _ (by omega), hgreen]
    · rw [hload _ (by omega), hblue]

private theorem nv21RoundTrips_iff {image : List UInt8} (hsize : 12 * (n * m) < 2 ^ 31)
    (hlen : image.length = 6 * (n * m)) :
    Nv21RoundTrips image (2 * m) (2 * n) ↔ 20 * (n * m) < 2 ^ 31 := by
  constructor
  · intro h
    by_contra h5
    have hpos : 0 < n * m := by omega
    have := h (malloc UInt8 _) (malloc UInt8 _) (length_malloc _) (length_malloc _)
    rw [yvu420sYuv420p_none (Nat.pos_of_mul_pos_left hpos) (Nat.pos_of_mul_pos_right hpos) (by omega)] at this
    cases this
  · intro h5 yuv420p yvu420s hp hq
    rw [nv21_length] at hp hq
    obtain ⟨p, hp', fp⟩ := yvu420sYuv420p_eq (d := yuv420p) h5 (fun k hk => fetch_map_getD 0 (hlen ▸ hk)) (by omega)
    obtain ⟨q, hq', fq⟩ := yuv420pYvu420s_eq (d := yvu420s) (by omega) fp.stored (by omega)
    rw [hp', Option.bind_some, hq']
    have himage : q = image.map some := by
      refine eq_map_of_getD 0 (by rw [fq.length, hq, hlen]) fun k hk => ?_
      rw [hlen] at hk
      rw [fq.stored k hk, semiplanar_planar hk]
    rw [himage]

/-- An NV21 image that is saved and opened again is its converted pixels. -/
theorem openBmpFile_saveAsBmp {allocs : BmpAllocs} {fileName image : List UInt8}
    (hname : fileName.length + 5 ≤ maxFilenameLength) (hm : 1 ≤ m) (hn : 1 ≤ n) (hw : 2 * m < 2 ^ 16)
    (hh : 2 * n < 2 ^ 16) (h5 : 20 * (n * m) < 2 ^ 31) (hf : Fits (2 * m) (2 * n))
    (hrow : rowBytes (2 * m) < 2 ^ 16) (hlen : image.length = 6 * (n * m))
    (hallocs : allocs.pYUV = true ∧ allocs.pRGB = true ∧ allocs.pTmp = true) :
    ∃ call ret file info, Converts image fileName (2 * m) (2 * n) call ∧
      saveAsBmp allocs true fileName (image.map some) (2 * m) (2 * n) = some (ret, some file) ∧
      openBmpFile (some file) = some (true, some (info, call.pRGBData)) ∧
      info.biWidth = (2 * m : Nat) ∧ info.biHeight = (2 * n : Nat) := by
  have hsaves : SavesConverted image fileName (2 * m) (2 * n)
      (saveAsBmpCall allocs fileName (image.map some) (2 * m) (2 * n)) :=
    (savesConverted_iff hw hh (by omega) hlen).2 ⟨hname, h5, .inr hallocs⟩
  obtain ⟨call, hcall, hconv⟩ := hsaves
  obtain ⟨call', hcall', -, -, -, hbytes, -, hload⟩ :=
    saveAsBmpCall_eq hname hw hh h5 (fun k hk => fetch_map_getD 0 (hlen ▸ hk)) (.inr hallocs)
  rw [hcall] at hcall'
  cases hcall'
  obtain ⟨rgb, hlen', hrgb⟩ := exists_eq_map (b := call.pRGBData) fun k hk => hload k (by omega)
  have hsize : 2 * n * (2 * m * 3) = 12 * (n * m) := by ring
  obtain ⟨ret, file, info, hsave, hopen, hwidth, hheight⟩ :=
    roundTrips_of (by omega) (by omega) hf (.inr hrow) rgb
      (by rw [hlen', hbytes, hsize])
  rw [← hrgb] at hsave hopen
  refine ⟨call, ret, file, info, hconv, ?_, hopen, hwidth, hheight⟩
  rw [saveAsBmp, hcall, Option.bind_some, hconv.width, hconv.height, hsave]

/-- An image is saved as it should exactly when `w * h * 5` does not overflow, the name of the file fits, and
the image has no pixels or its buffers are allocated; it comes back from its planes exactly when `w * h * 5`
does not overflow. -/
theorem nv21_saved_iff (allocs : BmpAllocs) (fileName image : List UInt8) {w h : Nat} (hw : 2 ∣ w)
    (hh : 2 ∣ h) (hw' : w < 2 ^ 16) (hh' : h < 2 ^ 16) (hsize : 3 * (w * h) < 2 ^ 31)
    (hlen : image.length = w * h * 3 / 2) :
    (SavesConverted image fileName w h (saveAsBmpCall allocs fileName (image.map some) w h) ↔
      fileName.length + 5 ≤ maxFilenameLength ∧ 5 * (w * h) < 2 ^ 31 ∧
        (w * h = 0 ∨ (allocs.pYUV = true ∧ allocs.pRGB = true ∧ allocs.pTmp = true))) ∧
    (Nv21RoundTrips image w h ↔ 5 * (w * h) < 2 ^ 31) := by
  obtain ⟨m, rfl⟩ := hw
  obtain ⟨n, rfl⟩ := hh
  rw [nv21_length] at hlen
  rw [area_eq] at hsize ⊢
  have h5 : 5 * (4 * (n * m)) < 2 ^ 31 ↔ 20 * (n * m) < 2 ^ 31 := by omega
  have h0 : 4 * (n * m) = 0 ↔ n * m = 0 := by omega
  rw [h5, h0]
  exact ⟨savesConverted_iff hw' hh' (by omega) hlen, nv21RoundTrips_iff (by omega) hlen⟩

/-- Two rows of four pixels. -/
theorem nv21_saved_iff_fourByTwo : SavesConverted [1, 2, 3, 4, 5, 6, 7, 8, 9, 10, 11, 12] [0x61] 4 2
      (saveAsBmpCall ⟨true, true, true⟩ [0x61] (List.map some [1, 2, 3, 4, 5, 6, 7, 8, 9, 10, 11, 12]) 4 2) ∧
    Nv21RoundTrips [1, 2, 3, 4, 5, 6, 7, 8, 9, 10, 11, 12] 4 2 := by
  have hiff := nv21_saved_iff ⟨true, true, true⟩ [0x61] [1, 2, 3, 4, 5, 6, 7, 8, 9, 10, 11, 12] (w := 4)
    (h := 2) (by decide) (by decide) (by decide) (by decide) (by decide) (by decide)
  exact ⟨hiff.1.2 ⟨by decide, by decide, .inr ⟨rfl, rfl, rfl⟩⟩, hiff.2.2 (by decide)⟩

/-- The index of the plane of V overflows, for an image of 65534 times 6554 pixels. -/
theorem wide_image_not_saved : ¬ SavesConverted (List.replicate 644264754 0) [0x61] 65534 6554
    (saveAsBmpCall ⟨true, true, true⟩ [0x61] (List.map some (List.replicate 644264754 0)) 65534 6554) := by
  rw [savesConverted_iff (m := 32767) (n := 3277) (by decide) (by decide) (by decide) List.length_replicate]
  rintro ⟨-, h5, -⟩
  exact absurd h5 (by decide)

end Vdsp

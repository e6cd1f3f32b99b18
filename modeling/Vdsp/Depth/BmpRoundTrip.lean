import Vdsp.Depth.BmpIo

/-!
# What the BMP reader of the depth test accepts

The reader accepts a file of a proper size exactly if its header is complete and the blue and the green byte of
each pixel are there (`bmpRead_accepts_iff`): the test of the red byte is of the first element of the array, so
the last byte of the last row may be missing, and the padding behind it.  A file that `bmp_write` has written is
read back with each value as a byte, and so is each prefix of it that is accepted (`bmpWrite_bmpRead`).
-/

namespace Vdsp

open Memory Reading

@[simp] theorem defined_some {α : Type} (x : α) : defined (some x) = .ok x := (rfl)

@[simp] theorem ok_bind {α β : Type} (x : α) (f : α → Except BmpFault β) : (Except.ok x >>= f) = f x := (rfl)

/-! ### The header -/

/-- The word of two bytes at the position `k`. -/
def shortAt (byteSwap : Bool) (l : List UInt8) (k : Nat) : Nat :=
  let c := (l.getD k 0).toNat
  let c' := (l.getD (k + 1) 0).toNat
  if byteSwap then c' <<< 8 ||| c else c <<< 8 ||| c'

/-- The word of four bytes at the position `k`. -/
def longAt (byteSwap : Bool) (l : List UInt8) (k : Nat) : Int :=
  let v := shortAt byteSwap l k
  let v' := shortAt byteSwap l (k + 2)
  intArg (if byteSwap then v' <<< 16 ||| v else v <<< 16 ||| v')

theorem getD_drop (l : List UInt8) (n k : Nat) : (l.drop n).getD k 0 = l.getD (n + k) 0 := by
  simp [List.getD_eq_getElem?_getD]

theorem shortAt_drop (byteSwap : Bool) (l : List UInt8) (n k : Nat) :
    shortAt byteSwap (l.drop n) k = shortAt byteSwap l (n + k) := by
  simp only [shortAt, getD_drop, Nat.add_assoc]

theorem longAt_drop (byteSwap : Bool) (l : List UInt8) (n k : Nat) :
    longAt byteSwap (l.drop n) k = longAt byteSwap l (n + k) := by
  simp only [longAt, shortAt_drop, Nat.add_assoc]

theorem reads_byte : Reads fgetcChecked 1 (fun _ => True) (fun l => ((l.getD 0 0).toNat : Int)) .failed where
  reads l hl _ := by
    cases l with
    | nil => simp at hl
    | cons c l =>
      have hc : ¬ (c.toNat : Int) = eof := by
        unfold eof
        omega
      show (if (c.toNat : Int) = eof then throw .failed else pure (c.toNat : Int) : BmpReader Int) l = _
      rw [if_neg hc]
      rfl
  fails l h := by
    cases l with
    | nil => rfl
    | cons c l => exact absurd ⟨by simp, trivial⟩ h

theorem reads_short (byteSwap : Bool) :
    Reads (readUShortInt byteSwap) 2 (fun _ => True) (fun l => shortAt byteSwap l 0) .failed := by
  refine (reads_byte.bind fun c => reads_byte.bind fun c' => Reads.pure _ _).congr (by simp) fun l _ _ => ?_
  simp only [getD_drop, shortAt]
  cases byteSwap <;> rfl

theorem reads_long (byteSwap : Bool) :
    Reads (readULongInt byteSwap) 4 (fun _ => True) (fun l => longAt byteSwap l 0) .failed := by
  refine ((reads_short byteSwap).bind fun v => (reads_short byteSwap).bind fun v' => Reads.pure _ _).congr
    (by simp) fun l _ _ => ?_
  simp only [shortAt_drop, longAt]
  cases byteSwap <;> rfl

/-- The two bytes at the front of a BMP file. -/
def Marked (l : List UInt8) : Prop := l.getD 0 0 = 66 ∧ l.getD 1 0 = 77

instance (l : List UInt8) : Decidable (Marked l) := inferInstanceAs (Decidable (_ ∧ _))

theorem reads_header (byteSwap : Bool) : Reads (bmpReadHeader byteSwap) 54 Marked
    (fun l => ⟨longAt byteSwap l 18, longAt byteSwap l 22, longAt byteSwap l 10⟩) .failed := by
  have hs := reads_short byteSwap
  have hl := reads_long byteSwap
  have h := reads_byte.bind fun c1 => reads_byte.bind fun c2 => Reads.ite (c := c1 ≠ 'B'.toNat ∨ c2 ≠ 'M'.toNat)
    (hl.bind fun _ => hs.bind fun _ => hs.bind fun _ => hl.bind fun psize => hl.bind fun _ =>
      hl.bind fun xsize => hl.bind fun ysize => hs.bind fun _ => hs.bind fun _ => hl.bind fun _ =>
      hl.bind fun _ => hl.bind fun _ => hl.bind fun _ => hl.bind fun _ => hl.bind fun _ =>
      Reads.pure (⟨xsize, ysize, psize⟩ : BmpHeader) BmpFault.failed)
  refine h.congr (fun l _ => ?_) fun l _ _ => ?_
  · simp only [getD_drop, Marked]
    simp only [true_and, and_true, not_or, not_not, Nat.add_zero, Int.natCast_inj]
    rw [show 'B'.toNat = (66 : UInt8).toNat from rfl, show 'M'.toNat = (77 : UInt8).toNat from rfl,
      UInt8.toNat_inj, UInt8.toNat_inj]
  · simp only [longAt_drop, List.drop_drop]

/-! ### The pixels -/

/-- What `fgetc` gives at the position `k`. -/
def byteAt (data : List UInt8) (k : Nat) : Int := (data[k]?).elim eof fun c => c.toNat

theorem byteAt_eq_eof {data : List UInt8} {k : Nat} : byteAt data k = eof ↔ data.length ≤ k := by
  unfold byteAt eof
  cases h : data[k]? with
  | none => simpa using List.getElem?_eq_none_iff.1 h
  | some c =>
    have hk := (List.getElem?_eq_some_iff.1 h).1
    simp only [Option.elim_some]
    constructor
    · intro hc
      omega
    · intro hle
      omega

theorem fgetc_drop (data : List UInt8) (k : Nat) :
    fgetc (data.drop k) = .ok (byteAt data k, data.drop (k + 1)) := by
  by_cases hk : k < data.length
  · rw [List.drop_eq_getElem_cons hk, byteAt, List.getElem?_eq_getElem hk]
    rfl
  · rw [List.drop_eq_nil_of_le (by omega), List.drop_eq_nil_of_le (by omega), byteAt,
      List.getElem?_eq_none (by omega)]
    rfl

/-- The bytes of a row in the file. -/
def scanline (w : Nat) : Nat := 3 * w + (4 - 3 * w % 4) % 4

/-- The cell of the pixel in the row `i` of the file and the column `j`. -/
def cellOf (w h i j : Nat) : Nat := (h - i - 1) * w + j

/-- How many pixels come before the one of the cell `k` in the file. -/
def turn (w h k : Nat) : Nat := (h - 1 - k / w) * w + k % w

/-- Where the pixel of the cell `k` begins in the data. -/
def posOf (w h k : Nat) : Nat := (h - 1 - k / w) * scanline w + 3 * (k % w)

variable {w h i j k : Nat}

theorem row_col_inj {i' j' : Nat} (hj : j < w) (hj' : j' < w) (heq : i' * w + j' = i * w + j) :
    i' = i ∧ j' = j := by
  obtain ⟨hd, hm⟩ := row_col i hj
  obtain ⟨hd', hm'⟩ := row_col i' hj'
  rw [heq] at hd' hm'
  exact ⟨hd'.symm.trans hd, hm'.symm.trans hm⟩

theorem cellOf_lt (hi : i < h) (hj : j < w) : cellOf w h i j < h * w := row_col_lt (by omega) hj

theorem turn_cellOf (hi : i < h) (hj : j < w) : turn w h (cellOf w h i j) = i * w + j := by
  obtain ⟨hdiv, hmod⟩ := row_col (h - i - 1) hj
  rw [turn, cellOf, hdiv, hmod, show h - 1 - (h - i - 1) = i by omega]

theorem posOf_cellOf (hi : i < h) (hj : j < w) : posOf w h (cellOf w h i j) = i * scanline w + 3 * j := by
  obtain ⟨hdiv, hmod⟩ := row_col (h - i - 1) hj
  rw [posOf, cellOf, hdiv, hmod, show h - 1 - (h - i - 1) = i by omega]

theorem cellOf_turn (hk : k < h * w) : cellOf w h (h - 1 - k / w) (k % w) = k := by
  obtain ⟨hrow, -⟩ := row_lt hk
  have hback : h - (h - 1 - k / w) - 1 = k / w := by
    generalize k / w = r at hrow
    omega
  rw [cellOf, hback, Nat.mul_comm, Nat.div_add_mod]

theorem exists_cellOf (hk : k < h * w) : ∃ i < h, ∃ j < w, k = cellOf w h i j := by
  obtain ⟨hrow, hcol⟩ := row_lt hk
  refine ⟨h - 1 - k / w, ?_, k % w, hcol, (cellOf_turn hk).symm⟩
  generalize k / w = r at hrow
  omega

/-- The pixel of the cell `k` is at the row and the column of its turn. -/
theorem turn_eq (hk : k < h * w) (hi : i < h) (hj : j < w) : turn w h k = i * w + j ↔ k = cellOf w h i j := by
  constructor
  · intro hturn
    obtain ⟨-, hcol⟩ := row_lt hk
    obtain ⟨hd, hm⟩ := row_col (h - 1 - k / w) hcol
    obtain ⟨hd', hm'⟩ := row_col i hj
    rw [← turn, hturn] at hd hm
    rw [← cellOf_turn hk, ← hd, ← hm, hd', hm']
  · rintro rfl
    exact turn_cellOf hi hj

/-- The sizes of an image for which `int` arithmetic is right. -/
structure BmpFits (w h : Nat) : Prop where
  width : 0 < w
  height : 0 < h
  size : 4 * (h * w) < 2 ^ 31

theorem BmpFits.width_lt (hf : BmpFits w h) : 4 * w < 2 ^ 31 := by
  have := Nat.le_mul_of_pos_left w hf.height
  have := hf.size
  omega

/-- The sizes of a row as both functions compute them. -/
theorem BmpFits.row (hf : BmpFits w h) : int32 (3 * (w : Int)) = some ((3 * w : Nat) : Int) ∧
    int32 ((4 - Int.tmod ((3 * w : Nat) : Int) 4).tmod 4 + ((3 * w : Nat) : Int)) = some (scanline w : Int) := by
  have hw := hf.width_lt
  constructor
  · rw [show (3 * (w : Int)) = ((3 * w : Nat) : Int) by omega, int32_of_lt (by omega)]
  · have hpad : (4 - Int.tmod ((3 * w : Nat) : Int) 4).tmod 4 + ((3 * w : Nat) : Int) = (scanline w : Nat) := by
      have hrow : Int.tmod ((3 * w : Nat) : Int) 4 = ((3 * w % 4 : Nat) : Int) := by
        rw [Int.tmod_eq_emod_of_nonneg (by omega), Int.natCast_emod]
        rfl
      rw [hrow, Int.tmod_eq_emod_of_nonneg (by omega)]
      unfold scanline
      omega
    rw [hpad, int32_of_lt]
    unfold scanline
    omega

/-- The index of a pixel as both functions compute it. -/
theorem BmpFits.index (hf : BmpFits w h) (hi : i < h) (hj : j < w) :
    int32 (((h : Int) - i - 1) * w + j) = some (cellOf w h i j : Int) := by
  have hlt := cellOf_lt hi hj
  have hsize := hf.size
  have hcell : ((h : Int) - i - 1) * w + j = (cellOf w h i j : Nat) := by
    have hrow : (h : Int) - i - 1 = ((h - i - 1 : Nat) : Int) := by omega
    rw [hrow, cellOf, Int.natCast_add, Int.natCast_mul]
  rw [hcell, int32_of_lt (by omega)]

/-- The arrays after the first `m` pixels of the file. -/
structure Loaded (data : List UInt8) (w h m : Nat) (s s' : BmpLoad) : Prop where
  blue : Fills (fun k => byteAt data (posOf w h k)) (fun k => k < h * w ∧ turn w h k < m) s.barray s'.barray
  green : Fills (fun k => byteAt data (posOf w h k + 1)) (fun k => k < h * w ∧ turn w h k < m) s.garray s'.garray
  red : Fills (fun k => byteAt data (posOf w h k + 2)) (fun k => k < h * w ∧ turn w h k < m) s.rarray s'.rarray

/-- The arrays have the cells of the image, with a zero in the first one. -/
structure Roomy (w h : Nat) (s : BmpLoad) : Prop where
  rarray : h * w ≤ s.rarray.length
  garray : h * w ≤ s.garray.length
  barray : h * w ≤ s.barray.length
  first : fetch s.rarray 0 = some 0

/-- The bytes of the pixels before, whose tests have been passed. -/
structure Passed (data : List UInt8) (w h m : Nat) : Prop where
  pixel : ∀ i < h, ∀ j < w, i * w + j < m → i * scanline w + 3 * j + 2 ≤ data.length
  first : (h - 1) * w < m → (h - 1) * scanline w + 3 ≤ data.length

/-- How many bytes of the data the tests ask for. -/
def needed (w h : Nat) : Nat := (h - 1) * scanline w + if w = 1 then 3 else 3 * w - 1

/-- One more cell is loaded. -/
private theorem loaded_store {v : Nat → Int} {b b' : Block Int} {m : Nat} (hf : Fills v
    (fun k => k < h * w ∧ turn w h k < m) b b') (hi : i < h) (hj : j < w) (hm : m = i * w + j)
    (hb : h * w ≤ b.length) {x : Int} (hx : x = v (cellOf w h i j)) :
    ∃ c, store b' (cellOf w h i j) x = some c ∧ Fills v (fun k => k < h * w ∧ turn w h k < m + 1) b c := by
  have hlt := cellOf_lt hi hj
  have hlen := hf.length
  obtain ⟨c, hc, hfill⟩ := fills_store v (b := b') (k := cellOf w h i j) (by omega) hx
  refine ⟨c, hc, (hf.trans hfill).congr fun k => ?_⟩
  constructor
  · rintro ⟨hk, ht⟩
    by_cases hkm : turn w h k < m
    · exact .inl ⟨hk, hkm⟩
    · exact .inr ((turn_eq hk hi hj).1 (by omega))
  · rintro (⟨hk, ht⟩ | rfl)
    · exact ⟨hk, by omega⟩
    · exact ⟨hlt, by rw [turn_cellOf hi hj]; omega⟩

section

variable {data : List UInt8} {s s' : BmpLoad} {m : Nat}

theorem Passed.next (hp : Passed data w h (i * w + j)) (hj : j < w)
    (hpixel : i * scanline w + 3 * j + 2 ≤ data.length)
    (hfirst : (h - 1) * w < i * w + j + 1 → (h - 1) * scanline w + 3 ≤ data.length) :
    Passed data w h (i * w + j + 1) where
  pixel i' hi' j' hj' hlt := by
    by_cases heq : i' * w + j' = i * w + j
    · obtain ⟨rfl, rfl⟩ := row_col_inj hj hj' heq
      exact hpixel
    · exact hp.pixel i' hi' j' hj' (by omega)
  first := hfirst

/-- All tests have been passed exactly if the bytes are there that they ask for. -/
theorem Passed.needed (hp : Passed data w h (h * w)) (hw : 0 < w) (hh : 0 < h) : needed w h ≤ data.length := by
  have hrows := row_col_lt (show h - 1 < h by omega) (show w - 1 < w by omega)
  have hlast := hp.pixel (h - 1) (by omega) (w - 1) (by omega) hrows
  have hfirst := hp.first (by omega)
  unfold Vdsp.needed
  split <;> omega

theorem row_needed (hi : i < h) (hj : j < w) : i * scanline w + 3 * j + 2 ≤ needed w h := by
  have hle := Nat.mul_le_mul_right (scanline w) (show i ≤ h - 1 by omega)
  unfold needed
  split <;> omega

theorem first_needed (hw : 0 < w) : (h - 1) * scanline w + 3 ≤ needed w h := by
  unfold needed
  split <;> omega

/-- The first element is zero until the pixel is read that belongs there. -/
theorem first_cell (hh : 0 < h) (hw : 0 < w) {b b' : Block Int} (hb : fetch b 0 = some 0)
    (hf : Fills (fun k => byteAt data (posOf w h k + 2)) (fun k => k < h * w ∧ turn w h k < m) b b') :
    fetch b' 0 = some (if (h - 1) * w < m then byteAt data ((h - 1) * scanline w + 2) else 0) := by
  have hturn : turn w h 0 = (h - 1) * w := by simp [turn]
  have hpos : posOf w h 0 = (h - 1) * scanline w := by simp [posOf]
  have hcell : 0 < h * w := Nat.mul_pos hh hw
  by_cases hm : (h - 1) * w < m
  · rw [if_pos hm, ← hpos]
    exact hf.stored 0 ⟨hcell, by omega⟩
  · rw [if_neg hm, hf.kept 0 (by omega)]
    exact hb

theorem bmpReadPixel_spec (hf : BmpFits w h) (hr : Roomy w h s) (hi : i < h) (hj : j < w)
    (hl : Loaded data w h (i * w + j) s s') (hp : Passed data w h (i * w + j))
    (hfile : s'.filein = data.drop (i * scanline w + 3 * j)) :
    (∃ s'', bmpReadPixel w h i j s' = .ok s'' ∧ Loaded data w h (i * w + j + 1) s s'' ∧
      Passed data w h (i * w + j + 1) ∧ s''.filein = data.drop (i * scanline w + 3 * (j + 1))) ∨
    ∃ e, bmpReadPixel w h i j s' = .error e ∧ e = .failed ∧ data.length < needed w h := by
  have hneed := row_needed hi hj
  have hpos := posOf_cellOf hi hj
  obtain ⟨barray, hb, hblue⟩ := loaded_store hl.blue hi hj rfl hr.barray (x := byteAt data (i * scanline w + 3 * j))
    (by rw [hpos])
  obtain ⟨garray, hg, hgreen⟩ := loaded_store hl.green hi hj rfl hr.garray
    (x := byteAt data (i * scanline w + 3 * j + 1)) (by rw [hpos])
  obtain ⟨rarray, hred', hred⟩ := loaded_store hl.red hi hj rfl hr.rarray
    (x := byteAt data (i * scanline w + 3 * j + 2)) (by rw [hpos])
  have hcell := first_cell hf.height hf.width hr.first hred
  have hrun : bmpReadPixel w h i j s' =
      if byteAt data (i * scanline w + 3 * j) = eof then .error .failed
      else if byteAt data (i * scanline w + 3 * j + 1) = eof then .error .failed
      else if (if (h - 1) * w < i * w + j + 1 then byteAt data ((h - 1) * scanline w + 2) else 0) = eof then
        .error .failed
      else .ok ⟨data.drop (i * scanline w + 3 * j + 3), rarray, garray, barray⟩ := by
    simp only [bmpReadPixel, hf.index hi hj, hfile, fgetc_drop, Int.toNat_natCast, hb, hg, hred', hcell,
      defined_some, bind, Except.bind, pure, Except.pure, throw, throwThe, MonadExceptOf.throw]
  rw [hrun]
  by_cases h1 : byteAt data (i * scanline w + 3 * j) = eof
  · right
    rw [byteAt_eq_eof] at h1
    exact ⟨.failed, by rw [if_pos (byteAt_eq_eof.2 h1)], rfl, by omega⟩
  rw [if_neg h1]
  by_cases h2 : byteAt data (i * scanline w + 3 * j + 1) = eof
  · right
    rw [byteAt_eq_eof] at h2
    exact ⟨.failed, by rw [if_pos (byteAt_eq_eof.2 h2)], rfl, by omega⟩
  rw [if_neg h2]
  rw [byteAt_eq_eof] at h2
  have hzero : ¬ (0 : Int) = eof := by decide
  by_cases hreach : (h - 1) * w < i * w + j + 1
  · rw [if_pos hreach]
    by_cases h3 : byteAt data ((h - 1) * scanline w + 2) = eof
    · right
      rw [byteAt_eq_eof] at h3
      have hfirst := first_needed (h := h) hf.width
      exact ⟨.failed, by rw [if_pos (byteAt_eq_eof.2 h3)], rfl, by omega⟩
    · left
      rw [if_neg h3]
      rw [byteAt_eq_eof] at h3
      exact ⟨_, rfl, ⟨hblue, hgreen, hred⟩, hp.next hj (by omega) fun _ => by omega, rfl⟩
  · left
    rw [if_neg hreach, if_neg hzero]
    exact ⟨_, rfl, ⟨hblue, hgreen, hred⟩, hp.next hj (by omega) fun h' => absurd h' hreach, rfl⟩

/-- The bytes behind the pixels of a row are read without a test. -/
private theorem padding_spec {p : Nat} (n : Nat) (hl : Loaded data w h m s s') (hfile : s'.filein = data.drop p) :
    ∃ s'', tryLoop n (fun _ s => do
        let (_dummy, filein) ← fgetc s.filein
        (pure { s with filein := filein } : Except BmpFault BmpLoad)) s' = .ok s'' ∧
      Loaded data w h m s s'' ∧ s''.filein = data.drop (p + n) := by
  refine tryLoop_ok (fun r s'' => Loaded data w h m s s'' ∧ s''.filein = data.drop (p + r)) n ⟨hl, hfile⟩ ?_
  rintro r - s₁ ⟨hl₁, hfile₁⟩
  refine ⟨{ s₁ with filein := data.drop (p + (r + 1)) }, ?_, ⟨hl₁.blue, hl₁.green, hl₁.red⟩, rfl⟩
  rw [hfile₁, fgetc_drop]
  rfl

theorem bmpReadData_spec (hf : BmpFits w h) (hr : Roomy w h s) (hfile : s.filein = data) :
    (∃ s', bmpReadData w h s = .ok s' ∧ Loaded data w h (h * w) s s' ∧ needed w h ≤ data.length) ∨
      bmpReadData w h s = .error .failed ∧ data.length < needed w h := by
  obtain ⟨hrow, hline⟩ := hf.row
  have hpad : (((scanline w : Nat) : Int) - ((3 * w : Nat) : Int)).toNat = scanline w - 3 * w := by omega
  have hle : 3 * w ≤ scanline w := by
    unfold scanline
    omega
  have hrun : bmpReadData w h s = tryLoop h (fun i s => do
      let s ← tryLoop w (bmpReadPixel w h i) s
      tryLoop (scanline w - 3 * w) (fun _ s => do
        let (_dummy, filein) ← fgetc s.filein
        (pure { s with filein := filein } : Except BmpFault BmpLoad)) s) s := by
    unfold bmpReadData
    rw [hrow]
    show (defined (int32 _) >>= _) = _
    rw [hline]
    show tryLoop _ _ _ = _
    rw [hpad, Int.toNat_natCast, Int.toNat_natCast]
  rw [hrun]
  have hloop := tryLoop_spec (f := fun i s => do
      let s ← tryLoop w (bmpReadPixel w h i) s
      tryLoop (scanline w - 3 * w) (fun _ s => do
        let (_dummy, filein) ← fgetc s.filein
        (pure { s with filein := filein } : Except BmpFault BmpLoad)) s) (s := s)
    (fun i s' => Loaded data w h (i * w) s s' ∧ Passed data w h (i * w) ∧
      s'.filein = data.drop (i * scanline w))
    (fun e => e = .failed ∧ data.length < needed w h) h ?_ ?_
  · rcases hloop with ⟨s', hs', hl, hp, -⟩ | ⟨e, he, rfl, hshort⟩
    · exact .inl ⟨s', hs', hl, hp.needed hf.width hf.height⟩
    · exact .inr ⟨he, hshort⟩
  · refine ⟨⟨?_, ?_, ?_⟩, ⟨fun i _ j _ hlt => absurd hlt (by omega), fun hlt => absurd hlt (by omega)⟩, ?_⟩
    · exact (fills_none _ _).congr (by simp)
    · exact (fills_none _ _).congr (by simp)
    · exact (fills_none _ _).congr (by simp)
    · rw [Nat.zero_mul, List.drop_zero]
      exact hfile
  · rintro i hi s₁ ⟨hl, hp, hfile₁⟩
    have hpixels := tryLoop_spec (f := bmpReadPixel w h i) (s := s₁)
      (fun j s' => Loaded data w h (i * w + j) s s' ∧ Passed data w h (i * w + j) ∧
        s'.filein = data.drop (i * scanline w + 3 * j))
      (fun e => e = .failed ∧ data.length < needed w h) w ⟨hl, hp, hfile₁⟩ fun j hj s' ⟨hl', hp', hfile'⟩ =>
        bmpReadPixel_spec hf hr hi hj hl' hp' hfile'
    rcases hpixels with ⟨s₂, hs₂, hl₂, hp₂, hfile₂⟩ | ⟨e, he, hfail⟩
    · left
      obtain ⟨s₃, hs₃, hl₃, hfile₃⟩ := padding_spec (scanline w - 3 * w) hl₂ hfile₂
      rw [show i * w + w = (i + 1) * w by rw [Nat.add_mul, Nat.one_mul]] at hl₃ hp₂
      rw [show i * scanline w + 3 * w + (scanline w - 3 * w) = (i + 1) * scanline w by
        rw [Nat.add_mul, Nat.one_mul]
        omega] at hfile₃
      refine ⟨s₃, ?_, hl₃, hp₂, hfile₃⟩
      show (tryLoop w (bmpReadPixel w h i) s₁ >>= _) = _
      rw [hs₂]
      exact hs₃
    · right
      refine ⟨e, ?_, hfail⟩
      show (tryLoop w (bmpReadPixel w h i) s₁ >>= _) = _
      rw [he]
      rfl

end

/-! ### The reader -/

/-- The arrays have the pixels of the data; a byte that is missing is `EOF`. -/
structure ImageOf (data : List UInt8) (w h : Nat) (img : BmpImage) : Prop where
  sizes : img.xsize = w ∧ img.ysize = h
  pixel : ∀ i < h, ∀ j < w,
    fetch img.barray (cellOf w h i j) = some (byteAt data (i * scanline w + 3 * j)) ∧
    fetch img.garray (cellOf w h i j) = some (byteAt data (i * scanline w + 3 * j + 1)) ∧
    fetch img.rarray (cellOf w h i j) = some (byteAt data (i * scanline w + 3 * j + 2))

theorem callocInts_eq {a : Abi} (hf : BmpFits w h) (ha : a.allocates (4 * (h * w) * 4)) :
    callocInts a (intArg (a.sizeT (toUnsigned a.bits (h * w : Nat) * 4))) true = calloc (4 * (h * w)) 0 := by
  have hsize := hf.size
  have hbits : 2 ^ 32 ≤ 2 ^ a.bits := by cases a <;> decide
  rw [toUnsigned_of_lt (by omega), Abi.sizeT_of_lt (by omega), intArg_of_lt (by omega), callocInts,
    toUnsigned_of_lt (by omega), if_pos ⟨rfl, by rwa [Nat.mul_comm (h * w) 4]⟩, Nat.mul_comm]

theorem bmpRead_unmarked {a : Abi} {byteSwap : Bool} {allocs : BmpArrays} {bytes : List UInt8}
    (h : ¬ (54 ≤ bytes.length ∧ Marked bytes)) :
    bmpRead a byteSwap allocs (some bytes) = .error .failed := by
  simp only [bmpRead, (reads_header byteSwap).fails bytes h, bind, Except.bind]

/-- The data of the pixels: from the offset that the header has or, when `fseek` refuses that, behind the header. -/
def dataOf (byteSwap : Bool) (bytes : List UInt8) : List UInt8 :=
  bytes.drop (if 0 ≤ longAt byteSwap bytes 10 then (longAt byteSwap bytes 10).toNat else 54)

/-- A file whose header has proper sizes is read exactly if it is long enough for the tests. -/
theorem bmpRead_accepts_iff {a : Abi} {byteSwap : Bool} {bytes : List UInt8} (hf : BmpFits w h)
    (ha : a.allocates (4 * (h * w) * 4)) (hw : longAt byteSwap bytes 18 = w) (hh : longAt byteSwap bytes 22 = h) :
    (54 ≤ bytes.length ∧ Marked bytes ∧ needed w h ≤ (dataOf byteSwap bytes).length →
      ∃ img, bmpRead a byteSwap ⟨true, true, true⟩ (some bytes) = .ok img ∧ ImageOf (dataOf byteSwap bytes) w h img) ∧
    (¬ (54 ≤ bytes.length ∧ Marked bytes ∧ needed w h ≤ (dataOf byteSwap bytes).length) →
      bmpRead a byteSwap ⟨true, true, true⟩ (some bytes) = .error .failed) := by
  have hdata : (if 0 ≤ longAt byteSwap bytes 10 then bytes.drop (longAt byteSwap bytes 10).toNat
      else bytes.drop 54) = dataOf byteSwap bytes := by
    unfold dataOf
    split <;> rfl
  generalize dataOf byteSwap bytes = data at hdata ⊢
  by_cases hheader : 54 ≤ bytes.length ∧ Marked bytes
  · have hread := (reads_header byteSwap).reads bytes hheader.1 hheader.2
    have hsize := hf.size
    have harea : int32 ((w : Int) * h) = some ((h * w : Nat) : Int) := by
      rw [← Int.natCast_mul, Nat.mul_comm, int32_of_lt (by omega)]
    have hcells : h * w ≤ 4 * (h * w) := by omega
    have hpos : 0 < h * w := Nat.mul_pos hf.height hf.width
    have hroomy : Roomy w h ⟨data, calloc (4 * (h * w)) 0, calloc (4 * (h * w)) 0,
        calloc (4 * (h * w)) 0⟩ :=
      ⟨by simpa using hcells, by simpa using hcells, by simpa using hcells, fetch_calloc (by omega)⟩
    have hrun : bmpRead a byteSwap ⟨true, true, true⟩ (some bytes) =
        (bmpReadData w h ⟨data, calloc (4 * (h * w)) 0, calloc (4 * (h * w)) 0,
          calloc (4 * (h * w)) 0⟩).bind fun s => .ok ⟨w, h, s.rarray, s.garray, s.barray⟩ := by
      have hbody : bmpRead a byteSwap ⟨true, true, true⟩ (some bytes) =
          bmpReadArrays a ⟨true, true, true⟩ w h data := by
        simp only [bmpRead, hread, ok_bind, hw, hh, hdata]
      rw [hbody]
      unfold bmpReadArrays
      simp only [harea, defined_some, ok_bind, callocInts_eq hf ha]
      generalize bmpReadData (w : Int) h _ = r
      cases r <;> rfl
    rw [hrun]
    rcases bmpReadData_spec hf hroomy rfl with ⟨s', hs', hl, hneed⟩ | ⟨hs', hshort⟩
    · refine ⟨fun _ => ?_, fun h => absurd ⟨hheader.1, hheader.2, hneed⟩ h⟩
      rw [hs']
      refine ⟨_, rfl, ⟨rfl, rfl⟩, fun i hi j hj => ?_⟩
      have hcell := cellOf_lt hi hj
      have hturn : turn w h (cellOf w h i j) < h * w := by
        rw [turn_cellOf hi hj]
        exact row_col_lt hi hj
      have hb := hl.blue.stored _ ⟨hcell, hturn⟩
      have hg := hl.green.stored _ ⟨hcell, hturn⟩
      have hr := hl.red.stored _ ⟨hcell, hturn⟩
      rw [posOf_cellOf hi hj] at hb hg hr
      exact ⟨hb, hg, hr⟩
    · refine ⟨fun hlong => absurd hlong.2.2 (Nat.not_le_of_lt hshort), fun _ => ?_⟩
      rw [hs']
      rfl
  · refine ⟨fun h => absurd ⟨h.1, h.2.1⟩ hheader, fun _ => ?_⟩
    exact bmpRead_unmarked hheader

/-- Two pixels in one row, without the last red byte. -/
def shortFile : List UInt8 :=
  [66, 77, 60, 0, 0, 0, 0, 0, 0, 0, 54, 0, 0, 0, 40, 0, 0, 0, 2, 0, 0, 0, 1, 0, 0, 0, 1, 0, 24, 0] ++
    List.replicate 24 0 ++ [1, 2, 3, 4, 5]

theorem bmpRead_accepts_iff_shortFile : ∃ img, bmpRead .lp64 true ⟨true, true, true⟩ (some shortFile) = .ok img ∧
    ImageOf [1, 2, 3, 4, 5] 2 1 img := by
  have hdata : dataOf true shortFile = [1, 2, 3, 4, 5] := by decide
  rw [← hdata]
  exact (bmpRead_accepts_iff ⟨by decide, by decide, by decide⟩ (by decide) (by decide) (by decide)).1
    ⟨by decide, by decide, by decide⟩

/-! ### The writer -/

def shortBytes (byteSwap : Bool) (v : Nat) : List UInt8 :=
  if byteSwap then [byteOf (v % 256 : Nat), byteOf (v / 256 % 256 : Nat)]
  else [byteOf (v / 256 % 256 : Nat), byteOf (v % 256 : Nat)]

def longBytes (byteSwap : Bool) (v : Nat) : List UInt8 :=
  if byteSwap then shortBytes byteSwap (v % 65536) ++ shortBytes byteSwap (v / 65536 % 65536)
  else shortBytes byteSwap (v / 65536 % 65536) ++ shortBytes byteSwap (v % 65536)

theorem writeUShortInt_eq (byteSwap : Bool) (v : Nat) (fileout : List UInt8) :
    writeUShortInt byteSwap v fileout = fileout ++ shortBytes byteSwap v := by
  cases byteSwap <;> simp [writeUShortInt, shortBytes, fputc]

theorem writeULongInt_eq (byteSwap : Bool) (v : Nat) (fileout : List UInt8) :
    writeULongInt byteSwap v fileout = fileout ++ longBytes byteSwap v := by
  cases byteSwap <;> simp [writeULongInt, longBytes, writeUShortInt_eq]

@[simp] theorem length_shortBytes (byteSwap : Bool) (v : Nat) : (shortBytes byteSwap v).length = 2 := by
  cases byteSwap <;> rfl

@[simp] theorem length_longBytes (byteSwap : Bool) (v : Nat) : (longBytes byteSwap v).length = 4 := by
  cases byteSwap <;> simp [longBytes]

theorem byteOf_toNat (n : Nat) : (byteOf n).toNat = n % 256 := by
  rw [byteOf, toUnsigned_natCast, UInt8.toNat_ofNat']
  omega

theorem shortAt_shortBytes (byteSwap : Bool) {v : Nat} (hv : v < 65536) (r : List UInt8) :
    shortAt byteSwap (shortBytes byteSwap v ++ r) 0 = v := by
  have hor : (v / 256 % 256) <<< 8 ||| v % 256 = v := by
    rw [← Nat.shiftLeft_add_eq_or_of_lt (by omega), Nat.shiftLeft_eq]
    omega
  have hlo : (byteOf ((v : Int) % 256)).toNat = v % 256 := by
    rw [show (v : Int) % 256 = (v % 256 : Nat) by omega, byteOf_toNat]
    omega
  have hhi : (byteOf ((v : Int) / 256 % 256)).toNat = v / 256 % 256 := by
    rw [show (v : Int) / 256 % 256 = (v / 256 % 256 : Nat) by omega, byteOf_toNat]
    omega
  cases byteSwap <;> simp [shortAt, shortBytes, hlo, hhi, hor]

theorem longAt_longBytes (byteSwap : Bool) {v : Nat} (hv : v < 2 ^ 31) (r : List UInt8) :
    longAt byteSwap (longBytes byteSwap v ++ r) 0 = v := by
  have hor : (v / 65536 % 65536) <<< 16 ||| v % 65536 = v := by
    rw [← Nat.shiftLeft_add_eq_or_of_lt (by omega), Nat.shiftLeft_eq]
    omega
  have hskip : ∀ x y : Nat, y < 65536 →
      shortAt byteSwap (shortBytes byteSwap x ++ (shortBytes byteSwap y ++ r)) 2 = y := by
    intro x y hy
    have h := shortAt_drop byteSwap (shortBytes byteSwap x ++ (shortBytes byteSwap y ++ r)) 2 0
    rw [List.drop_left' (length_shortBytes _ _), shortAt_shortBytes _ hy] at h
    exact h.symm
  unfold longAt longBytes
  cases byteSwap with
  | true =>
    simp only [if_true, List.append_assoc, shortAt_shortBytes true (show v % 65536 < 65536 by omega),
      hskip _ (v / 65536 % 65536) (by omega), hor, intArg_of_lt hv]
  | false =>
    simp only [Bool.false_eq_true, if_false, List.append_assoc,
      shortAt_shortBytes false (show v / 65536 % 65536 < 65536 by omega), hskip _ (v % 65536) (by omega), hor,
      intArg_of_lt hv]

/-- A word behind `l`. -/
theorem longAt_append (byteSwap : Bool) {v n : Nat} (hv : v < 2 ^ 31) {l : List UInt8} (hl : l.length = n)
    (r : List UInt8) : longAt byteSwap (l ++ (longBytes byteSwap v ++ r)) n = v := by
  have h := longAt_drop byteSwap (l ++ (longBytes byteSwap v ++ r)) n 0
  rw [List.drop_left' hl, longAt_longBytes _ hv] at h
  exact h.symm

/-- The header of an image. -/
def headerBytes (byteSwap : Bool) (w h : Nat) : List UInt8 :=
  let long := longBytes byteSwap
  let short := shortBytes byteSwap
  [66, 77] ++ (long (3 * w * h + 54) ++ (short 0 ++ (short 0 ++ (long 54 ++ (long 40 ++ (long w ++ (long h ++
    (short 1 ++ (short 24 ++ (long 0 ++ (long 0 ++ (long 0 ++ (long 0 ++ (long 0 ++ long 0))))))))))))))

theorem length_headerBytes (byteSwap : Bool) (w h : Nat) : (headerBytes byteSwap w h).length = 54 := by
  simp [headerBytes]

/-- The header has the marks and the sizes of the image. -/
theorem headerBytes_spec (hf : BmpFits w h) (byteSwap : Bool) (r : List UInt8) :
    Marked (headerBytes byteSwap w h ++ r) ∧ longAt byteSwap (headerBytes byteSwap w h ++ r) 18 = w ∧
      longAt byteSwap (headerBytes byteSwap w h ++ r) 22 = h ∧
      longAt byteSwap (headerBytes byteSwap w h ++ r) 10 = (54 : Nat) := by
  have hw := hf.width_lt
  have hh := Nat.le_mul_of_pos_right h hf.width
  have hsize := hf.size
  refine ⟨⟨rfl, rfl⟩, ?_, ?_, ?_⟩
  · have := longAt_append byteSwap (v := w) (n := 18) (by omega) (l := [66, 77] ++ (longBytes byteSwap
      (3 * w * h + 54) ++ (shortBytes byteSwap 0 ++ (shortBytes byteSwap 0 ++ (longBytes byteSwap 54 ++
      longBytes byteSwap 40))))) (by simp)
    simpa only [headerBytes, List.append_assoc] using this _
  · have := longAt_append byteSwap (v := h) (n := 22) (by omega) (l := [66, 77] ++ (longBytes byteSwap
      (3 * w * h + 54) ++ (shortBytes byteSwap 0 ++ (shortBytes byteSwap 0 ++ (longBytes byteSwap 54 ++
      (longBytes byteSwap 40 ++ longBytes byteSwap w)))))) (by simp)
    simpa only [headerBytes, List.append_assoc] using this _
  · have := longAt_append byteSwap (v := 54) (n := 10) (by omega) (l := [66, 77] ++ (longBytes byteSwap
      (3 * w * h + 54) ++ (shortBytes byteSwap 0 ++ shortBytes byteSwap 0))) (by simp)
    simpa only [headerBytes, List.append_assoc] using this _

theorem bmpWriteHeader_eq (hf : BmpFits w h) (a : Abi) (byteSwap : Bool) :
    bmpWriteHeader a byteSwap w h [] = .ok (headerBytes byteSwap w h) := by
  have hsize := hf.size
  have hw := hf.width_lt
  have hh := Nat.le_mul_of_pos_right h hf.width
  have hbits : 2 ^ 32 ≤ 2 ^ a.bits := by cases a <;> decide
  have hbytes : 3 * w * h = 3 * (h * w) := by rw [Nat.mul_assoc, Nat.mul_comm w h]
  have h1 := hf.row.1
  have h2 : int32 (((3 * w : Nat) : Int) * h) = some ((3 * w * h : Nat) : Int) := by
    rw [← Int.natCast_mul, int32_of_lt (by omega)]
  have h3 : int32 (((3 * w * h : Nat) : Int) + 54) = some ((3 * w * h + 54 : Nat) : Int) := by
    rw [show ((3 * w * h : Nat) : Int) + 54 = ((3 * w * h + 54 : Nat) : Int) by omega, int32_of_lt (by omega)]
  simp only [bmpWriteHeader, h1, h2, h3, defined_some, ok_bind, writeULongInt_eq, writeUShortInt_eq, tryLoop,
    Except.bind, pure, Except.pure, toUnsigned_of_lt (show 3 * w * h + 54 < 2 ^ a.bits by omega),
    toUnsigned_of_lt (show w < 2 ^ a.bits by omega), toUnsigned_of_lt (show h < 2 ^ a.bits by omega)]
  simp only [fputc, List.nil_append, List.append_assoc, headerBytes]
  rfl

/-- The values of the three arrays, by the cell. -/
structure Planes where
  red : Nat → Int
  green : Nat → Int
  blue : Nat → Int

/-- The byte at the position `k` behind the header. -/
def Planes.byte (v : Planes) (w h k : Nat) : UInt8 :=
  let c := cellOf w h (k / scanline w) (k % scanline w / 3)
  if k % scanline w < 3 * w then
    byteOf (if k % scanline w % 3 = 0 then v.blue c else if k % scanline w % 3 = 1 then v.green c else v.red c)
  else 0

/-- The arrays have the values. -/
structure Planes.InArrays (v : Planes) (n : Nat) (rarray garray barray : Block Int) : Prop where
  red : ∀ k < n, fetch rarray k = some (v.red k)
  green : ∀ k < n, fetch garray k = some (v.green k)
  blue : ∀ k < n, fetch barray k = some (v.blue k)

theorem le_scanline (w : Nat) : 3 * w ≤ scanline w := by
  unfold scanline
  omega

section

variable {v : Planes} {rarray garray barray : Block Int} {head : List UInt8}

theorem Planes.byte_pixel (hj : j < w) {c : Nat} (hc : c < 3) : v.byte w h (i * scanline w + (3 * j + c)) =
    byteOf (if c = 0 then v.blue (cellOf w h i j) else if c = 1 then v.green (cellOf w h i j)
      else v.red (cellOf w h i j)) := by
  have hle := le_scanline w
  obtain ⟨hdiv, hmod⟩ := row_col (W := scanline w) i (show 3 * j + c < scanline w by omega)
  rw [Planes.byte, hdiv, hmod, if_pos (by omega), show (3 * j + c) / 3 = j by omega,
    show (3 * j + c) % 3 = c by omega]

theorem Planes.byte_padding {t : Nat} (ht : 3 * w + t < scanline w) :
    v.byte w h (i * scanline w + (3 * w + t)) = byteOf 0 := by
  obtain ⟨hdiv, hmod⟩ := row_col (W := scanline w) i ht
  rw [Planes.byte, hmod, if_neg (by omega)]
  rfl

theorem fputc_range {f : Nat → UInt8} {c : Int} {n : Nat} (hc : byteOf c = f n) :
    fputc c (head ++ (List.range n).map f) = head ++ (List.range (n + 1)).map f := by
  rw [fputc, hc, List.range_succ, List.map_append, List.append_assoc]
  rfl

theorem bmpWritePixel_eq (hf : BmpFits w h) (hv : v.InArrays (h * w) rarray garray barray) (hi : i < h)
    (hj : j < w) : bmpWritePixel w h rarray garray barray i j
      (head ++ (List.range (i * scanline w + 3 * j)).map (v.byte w h)) =
      .ok (head ++ (List.range (i * scanline w + 3 * (j + 1))).map (v.byte w h)) := by
  have hcell := cellOf_lt hi hj
  have hb : byteOf (v.blue (cellOf w h i j)) = v.byte w h (i * scanline w + 3 * j) :=
    (v.byte_pixel hj (c := 0) (by omega)).symm
  have hg : byteOf (v.green (cellOf w h i j)) = v.byte w h (i * scanline w + 3 * j + 1) :=
    (v.byte_pixel hj (c := 1) (by omega)).symm
  have hr : byteOf (v.red (cellOf w h i j)) = v.byte w h (i * scanline w + 3 * j + 2) :=
    (v.byte_pixel hj (c := 2) (by omega)).symm
  simp only [bmpWritePixel, hf.index hi hj, Int.toNat_natCast, hv.blue _ hcell, hv.green _ hcell, hv.red _ hcell,
    defined_some, ok_bind, pure, Except.pure]
  rw [fputc_range hb, fputc_range hg, fputc_range hr]
  rfl

theorem bmpWriteData_eq (hf : BmpFits w h) (hv : v.InArrays (h * w) rarray garray barray) :
    bmpWriteData w h rarray garray barray head =
      .ok (head ++ (List.range (h * scanline w)).map (v.byte w h)) := by
  obtain ⟨hrow, hline⟩ := hf.row
  have hle := le_scanline w
  have hpad : (((scanline w : Nat) : Int) - ((3 * w : Nat) : Int)).toNat = scanline w - 3 * w := by omega
  have hrun : bmpWriteData w h rarray garray barray head = tryLoop h (fun i fileout => do
      let fileout ← tryLoop w (bmpWritePixel w h rarray garray barray i) fileout
      tryLoop (scanline w - 3 * w) (fun _ fileout => (pure (fputc 0 fileout) : Except BmpFault _)) fileout) head := by
    simp only [bmpWriteData, hrow, hline, defined_some, ok_bind, hpad, Int.toNat_natCast]
  have hrows : ∀ i < h, (do
      let fileout ← tryLoop w (bmpWritePixel w h rarray garray barray i)
        (head ++ (List.range (i * scanline w)).map (v.byte w h))
      tryLoop (scanline w - 3 * w) (fun _ fileout => (pure (fputc 0 fileout) : Except BmpFault _)) fileout) =
      .ok (head ++ (List.range ((i + 1) * scanline w)).map (v.byte w h)) := by
    intro i hi
    obtain ⟨out, hpixels, hout⟩ := tryLoop_ok (f := bmpWritePixel w h rarray garray barray i)
      (s := head ++ (List.range (i * scanline w)).map (v.byte w h))
      (fun j out => out = head ++ (List.range (i * scanline w + 3 * j)).map (v.byte w h)) w rfl fun j hj out hout =>
        ⟨_, by rw [hout]; exact bmpWritePixel_eq hf hv hi hj, rfl⟩
    obtain ⟨out', hzeros, hout'⟩ := tryLoop_ok
      (f := fun _ fileout => (pure (fputc 0 fileout) : Except BmpFault (List UInt8))) (s := out)
      (fun t out => out = head ++ (List.range (i * scanline w + 3 * w + t)).map (v.byte w h)) (scanline w - 3 * w)
      hout fun t ht out hout => ⟨_, by
        rw [hout]
        exact congrArg Except.ok (fputc_range (by rw [Nat.add_assoc, v.byte_padding (by omega)])), rfl⟩
    have hend : i * scanline w + 3 * w + (scanline w - 3 * w) = (i + 1) * scanline w := by
      rw [Nat.add_mul, Nat.one_mul]
      omega
    rw [hpixels, ok_bind, hzeros, hout', hend]
  obtain ⟨out, hloop, hout⟩ := tryLoop_ok (f := fun i fileout => do
      let fileout ← tryLoop w (bmpWritePixel w h rarray garray barray i) fileout
      tryLoop (scanline w - 3 * w) (fun _ fileout => (pure (fputc 0 fileout) : Except BmpFault _)) fileout)
    (s := head) (fun i out => out = head ++ (List.range (i * scanline w)).map (v.byte w h)) h (by simp)
    fun i hi out hout => ⟨_, by rw [hout]; exact hrows i hi, rfl⟩
  rw [hrun, hloop, hout]

end

/-! ### The round trip -/

/-- The image in the arrays is the one that was written, each value as a byte; in the file that is one byte
short the last red value is missing. -/
structure ReadsBack (v : Planes) (w h n : Nat) (img : BmpImage) : Prop where
  sizes : img.xsize = w ∧ img.ysize = h
  blue : ∀ k < h * w, fetch img.barray k = some ((byteOf (v.blue k)).toNat : Int)
  green : ∀ k < h * w, fetch img.garray k = some ((byteOf (v.green k)).toNat : Int)
  red : ∀ k < h * w, fetch img.rarray k = some
    (if k = w - 1 ∧ n = 54 + needed w h ∧ w ≠ 1 then eof else ((byteOf (v.red k)).toNat : Int))

theorem byteAt_take {f : Nat → UInt8} {n m k : Nat} :
    byteAt (((List.range n).map f).take m) k = if k < m ∧ k < n then ((f k).toNat : Int) else eof := by
  unfold byteAt
  by_cases hm : k < m
  · by_cases hn : k < n
    · rw [if_pos ⟨hm, hn⟩, List.getElem?_take_of_lt hm, List.getElem?_map, List.getElem?_range hn]
      rfl
    · rw [if_neg fun h => hn h.2, List.getElem?_eq_none (by simp; omega)]
      rfl
  · rw [if_neg fun h => hm h.1, List.getElem?_eq_none (by simp; omega)]
    rfl

/-- Only the last byte that is asked for is not tested. -/
theorem red_missing (hi : i < h) (hj : j < w) {n : Nat} (hn : needed w h ≤ n) :
    i * scanline w + 3 * j + 2 < n ↔ ¬ (cellOf w h i j = w - 1 ∧ n = needed w h ∧ w ≠ 1) := by
  have hle := Nat.mul_le_mul_right (scanline w) (show i ≤ h - 1 by omega)
  have hlt : i + 1 ≤ h - 1 → i * scanline w + scanline w ≤ (h - 1) * scanline w := fun h1 => by
    have := Nat.mul_le_mul_right (scanline w) h1
    rwa [Nat.add_mul, Nat.one_mul] at this
  have hscan := le_scanline w
  have hcell : cellOf w h i j = w - 1 ↔ i = h - 1 ∧ j = w - 1 := by
    have hw1 : cellOf w h (h - 1) (w - 1) = w - 1 := by
      rw [cellOf, show h - (h - 1) - 1 = 0 by omega, Nat.zero_mul, Nat.zero_add]
    constructor
    · intro heq
      have h2 := turn_cellOf hi hj
      rw [heq, ← hw1, turn_cellOf (by omega) (by omega)] at h2
      obtain ⟨h3, h4⟩ := row_col_inj hj (show w - 1 < w by omega) h2
      exact ⟨h3.symm, h4.symm⟩
    · rintro ⟨rfl, rfl⟩
      exact hw1
  rw [hcell]
  unfold needed at hn ⊢
  generalize scanline w = s at *
  by_cases hi' : i = h - 1
  · subst hi'
    by_cases hw1 : w = 1
    · rw [if_pos hw1] at hn ⊢
      omega
    · rw [if_neg hw1] at hn ⊢
      omega
  · have := hlt (by omega)
    by_cases hw1 : w = 1
    · rw [if_pos hw1] at hn ⊢
      omega
    · rw [if_neg hw1] at hn ⊢
      omega

theorem needed_lt (hf : BmpFits w h) : needed w h < h * scanline w := by
  have hw := hf.width
  have hle := le_scanline w
  have hlast : h * scanline w = (h - 1) * scanline w + scanline w := by
    conv_lhs => rw [show h = h - 1 + 1 by have := hf.height; omega, Nat.add_mul, Nat.one_mul]
  rw [hlast]
  unfold needed
  by_cases hw1 : w = 1
  · subst hw1
    show _ + 3 < _ + 4
    omega
  · rw [if_neg hw1]
    omega

/-- The arrays that are read from a prefix of the rows. -/
theorem ImageOf.readsBack {v : Planes} {m : Nat} {img : BmpImage} (hf : BmpFits w h) (hm : needed w h ≤ m)
    (himg : ImageOf (((List.range (h * scanline w)).map (v.byte w h)).take m) w h img) :
    ReadsBack v w h (54 + m) img := by
  have hneed := needed_lt hf
  have hbyte : ∀ i < h, ∀ j < w, ∀ c < 3,
      byteAt (((List.range (h * scanline w)).map (v.byte w h)).take m) (i * scanline w + (3 * j + c)) =
        if i * scanline w + (3 * j + c) < m then ((byteOf (if c = 0 then v.blue (cellOf w h i j)
          else if c = 1 then v.green (cellOf w h i j) else v.red (cellOf w h i j))).toNat : Int) else eof := by
    intro i hi j hj c hc
    have hle := row_needed hi hj
    have hrow : i * scanline w + (3 * j + c) < h * scanline w := by omega
    rw [byteAt_take, v.byte_pixel hj hc]
    simp only [hrow, and_true]
  refine ⟨himg.sizes, fun k hk => ?_, fun k hk => ?_, fun k hk => ?_⟩
  · obtain ⟨i, hi, j, hj, rfl⟩ := exists_cellOf hk
    have hle := row_needed hi hj
    rw [(himg.pixel i hi j hj).1]
    exact congrArg some ((hbyte i hi j hj 0 (by omega)).trans (if_pos (by omega)))
  · obtain ⟨i, hi, j, hj, rfl⟩ := exists_cellOf hk
    have hle := row_needed hi hj
    rw [(himg.pixel i hi j hj).2.1]
    exact congrArg some ((hbyte i hi j hj 1 (by omega)).trans (if_pos (by omega)))
  · obtain ⟨i, hi, j, hj, rfl⟩ := exists_cellOf hk
    have hred := hbyte i hi j hj 2 (by omega)
    have hmiss := red_missing hi hj hm
    rw [(himg.pixel i hi j hj).2.2]
    refine congrArg some (hred.trans ?_)
    by_cases hlast : cellOf w h i j = w - 1 ∧ m = needed w h ∧ w ≠ 1
    · rw [if_neg (by omega), if_pos ⟨hlast.1, by omega, hlast.2.2⟩]
    · exact (if_pos (by omega)).trans (if_neg (by omega)).symm

/-- What has been written is read back, and so is each prefix of it that has the bytes that are tested. -/
theorem bmpWrite_bmpRead {a : Abi} (hf : BmpFits w h) (ha : a.allocates (4 * (h * w) * 4)) (byteSwap : Bool)
    {v : Planes} {rarray garray barray : Block Int} (hv : v.InArrays (h * w) rarray garray barray) :
    ∃ file, bmpWrite a byteSwap true w h rarray garray barray = .ok file ∧
      file.length = 54 + h * scanline w ∧
      ∀ n, (54 + needed w h ≤ n → ∃ img,
          bmpRead a byteSwap ⟨true, true, true⟩ (some (file.take n)) = .ok img ∧ ReadsBack v w h n img) ∧
        (n < 54 + needed w h → bmpRead a byteSwap ⟨true, true, true⟩ (some (file.take n)) = .error .failed) := by
  have hhead := length_headerBytes byteSwap w h
  have hneed := needed_lt hf
  refine ⟨headerBytes byteSwap w h ++ (List.range (h * scanline w)).map (v.byte w h), ?_, ?_, fun n => ?_⟩
  · simp only [bmpWrite, bmpWriteHeader_eq hf, bmpWriteData_eq hf hv, ok_bind]
    rfl
  · rw [List.length_append, hhead, List.length_map, List.length_range]
  have hshort : n < 54 → bmpRead a byteSwap ⟨true, true, true⟩ (some ((headerBytes byteSwap w h ++
      (List.range (h * scanline w)).map (v.byte w h)).take n)) = .error .failed := by
    intro hn
    refine bmpRead_unmarked fun hlong => absurd hlong.1 ?_
    rw [List.length_take]
    omega
  by_cases hn : n < 54
  · exact ⟨fun h' => absurd h' (by omega), fun _ => hshort hn⟩
  have hfile : (headerBytes byteSwap w h ++ (List.range (h * scanline w)).map (v.byte w h)).take n =
      headerBytes byteSwap w h ++ ((List.range (h * scanline w)).map (v.byte w h)).take (n - 54) := by
    rw [List.take_append, hhead, List.take_of_length_le (by omega)]
  rw [hfile]
  obtain ⟨hmarked, hw, hh, hoff⟩ := headerBytes_spec hf byteSwap
    (((List.range (h * scanline w)).map (v.byte w h)).take (n - 54))
  have hread := bmpRead_accepts_iff hf ha hw hh
  rw [dataOf, hoff, if_pos (Int.natCast_nonneg _), Int.toNat_natCast, List.drop_left' hhead] at hread
  have hlen : (((List.range (h * scanline w)).map (v.byte w h)).take (n - 54)).length =
      min (n - 54) (h * scanline w) := by
    rw [List.length_take, List.length_map, List.length_range]
  constructor
  · intro hle
    obtain ⟨img, himg, himage⟩ := hread.1
      ⟨by rw [List.length_append]; omega, hmarked, by rw [hlen]; omega⟩
    have hback := himage.readsBack hf (show needed w h ≤ n - 54 by omega)
    rw [show 54 + (n - 54) = n by omega] at hback
    exact ⟨img, himg, hback⟩
  · intro hlt
    exact hread.2 fun h' => absurd h'.2.2 (by rw [hlen]; omega)

/-- Values that are no bytes. -/
theorem bmpWrite_bmpRead_twoPixels :
    ∃ file, bmpWrite .lp64 false true 2 1 [some 300, some 7] [some 0, some 1] [some (-1), some 2] = .ok file ∧
      file.length = 54 + 1 * scanline 2 ∧
      ∀ n, (54 + needed 2 1 ≤ n → ∃ img,
          bmpRead .lp64 false ⟨true, true, true⟩ (some (file.take n)) = .ok img ∧
            ReadsBack ⟨fun k => if k = 0 then 300 else 7, fun k => k, fun k => 3 * k - 1⟩ 2 1 n img) ∧
        (n < 54 + needed 2 1 → bmpRead .lp64 false ⟨true, true, true⟩ (some (file.take n)) = .error .failed) :=
  bmpWrite_bmpRead ⟨by decide, by decide, by decide⟩ (by decide) false ⟨by decide, by decide, by decide⟩

end Vdsp

import Vdsp.Hdr.Bmp
import Vdsp.Lib.Reader

/-!
# Reading and writing BMP files (`bmp_io.cpp` of the depth test)

The functions read and write a file byte by byte, with the words of the header in either byte order
(`byte_swap`).  A row of the file is padded to a multiple of four bytes, and the rows are in the other order
than in the arrays.

A file is a list of bytes; what is left of it to be read is the end of that list.  A function is `undefined`
where the C++ function is: a load or a store outside an array, or an overflow of `int`.  It has `failed` where
it returns 1.  Writing does not fail.
-/

namespace Vdsp

open Memory Reading

inductive BmpFault
  | undefined
  | failed
  deriving DecidableEq, Repr

abbrev BmpReader := StateT (List UInt8) (Except BmpFault)

def defined {α : Type} (x : Option α) : Except BmpFault α := x.elim (.error .undefined) .ok

/-! ### Reading -/

def eof : Int := -1

def fgetc : BmpReader Int := fun filein =>
  match filein with
  | [] => .ok (eof, [])
  | c :: filein => .ok (c.toNat, filein)

/-- `fgetc`, and the return at the end of the file. -/
def fgetcChecked : BmpReader Int := do
  let c ← fgetc
  if c = eof then throw .failed else pure c

/-- `read_u_short_int`. -/
def readUShortInt (byteSwap : Bool) : BmpReader Nat := do
  let c ← fgetcChecked
  let c' ← fgetcChecked
  let (chi, clo) := if byteSwap then (c', c) else (c, c')
  pure (chi.toNat <<< 8 ||| clo.toNat)

/-- `read_u_long_int`.  The value is an `int`; the `unsigned long` that it is stored to is converted back. -/
def readULongInt (byteSwap : Bool) : BmpReader Int := do
  let v ← readUShortInt byteSwap
  let v' ← readUShortInt byteSwap
  let (hi, lo) := if byteSwap then (v', v) else (v, v')
  pure (intArg (hi <<< 16 ||| lo))

/-- The fields of the header that are kept. -/
structure BmpHeader where
  xsize : Int
  ysize : Int
  psize : Int
  deriving DecidableEq, Repr

/-- `bmp_read_header`. -/
def bmpReadHeader (byteSwap : Bool) : BmpReader BmpHeader := do
  let c1 ← fgetcChecked
  let c2 ← fgetcChecked
  if c1 ≠ 'B'.toNat ∨ c2 ≠ 'M'.toNat then throw .failed
  else
    let _fileSize ← readULongInt byteSwap
    let _reserved1 ← readUShortInt byteSwap
    let _reserved2 ← readUShortInt byteSwap
    let psize ← readULongInt byteSwap
    let _size ← readULongInt byteSwap
    let xsize ← readULongInt byteSwap
    let ysize ← readULongInt byteSwap
    let _planes ← readUShortInt byteSwap
    let _bitsPerPixel ← readUShortInt byteSwap
    let _compression ← readULongInt byteSwap
    let _sizeOfBitmap ← readULongInt byteSwap
    let _horzResolution ← readULongInt byteSwap
    let _vertResolution ← readULongInt byteSwap
    let _colorsUsed ← readULongInt byteSwap
    let _colorsImportant ← readULongInt byteSwap
    pure { xsize := xsize, ysize := ysize, psize := psize }

/-- What the loops of `bmp_read_data` change. -/
structure BmpLoad where
  filein : List UInt8
  rarray : Block Int
  garray : Block Int
  barray : Block Int
  deriving DecidableEq

/-- The body of the loops over the pixels. -/
def bmpReadPixel (xsize ysize : Int) (i j : Nat) (s : BmpLoad) : Except BmpFault BmpLoad := do
  let k ← defined (int32 ((ysize - i - 1) * xsize + j))
  let (blue, filein) ← fgetc s.filein
  let barray ← defined (store s.barray k.toNat blue)
  if blue = eof then throw .failed
  else
    let (green, filein) ← fgetc filein
    let garray ← defined (store s.garray k.toNat green)
    if green = eof then throw .failed
    else
      let (red, filein) ← fgetc filein
      let rarray ← defined (store s.rarray k.toNat red)
      -- the test is of `*indexr`, the first element of the array
      let first ← defined (fetch rarray 0)
      if first = eof then throw .failed else pure ⟨filein, rarray, garray, barray⟩

/-- `bmp_read_data`. -/
def bmpReadData (xsize ysize : Int) (s : BmpLoad) : Except BmpFault BmpLoad := do
  let row ← defined (int32 (3 * xsize))
  let padding := (4 - row.tmod 4).tmod 4
  let scanline ← defined (int32 (padding + row))
  tryLoop ysize.toNat (fun i s => do
    let s ← tryLoop xsize.toNat (bmpReadPixel xsize ysize i) s
    tryLoop (scanline - row).toNat (fun _ s => do
      let (_dummy, filein) ← fgetc s.filein
      pure { s with filein := filein }) s) s

/-- `(int *)calloc(numbytes,sizeof(int))`; `NULL` is a block without cells. -/
def callocInts (a : Abi) (numbytes : Int) (ok : Bool) : Block Int :=
  if ok = true ∧ a.allocates (toUnsigned a.bits numbytes * 4) then calloc (toUnsigned a.bits numbytes) 0 else []

structure BmpImage where
  xsize : Int
  ysize : Int
  rarray : Block Int
  garray : Block Int
  barray : Block Int
  deriving DecidableEq

/-- Whether the allocations of the three arrays succeed. -/
structure BmpArrays where
  r : Bool
  g : Bool
  b : Bool
  deriving DecidableEq, Repr

/-- `bmp_read` behind the header.  The tests of the allocations are of the arguments, which are not `NULL`. -/
def bmpReadArrays (a : Abi) (allocs : BmpArrays) (xsize ysize : Int) (filein : List UInt8) :
    Except BmpFault BmpImage := do
  let area ← defined (int32 (xsize * ysize))
  let numbytes := intArg (a.sizeT (toUnsigned a.bits area * 4))
  let s ← bmpReadData xsize ysize
    { filein := filein
      rarray := callocInts a numbytes allocs.r
      garray := callocInts a numbytes allocs.g
      barray := callocInts a numbytes allocs.b }
  pure ⟨xsize, ysize, s.rarray, s.garray, s.barray⟩

/-- `bmp_read`. -/
def bmpRead (a : Abi) (byteSwap : Bool) (allocs : BmpArrays) (fopen : Option (List UInt8)) :
    Except BmpFault BmpImage :=
  match fopen with
  | none => .error .failed
  | some bytes => do
    let (header, filein) ← bmpReadHeader byteSwap bytes
    -- `fseek` does nothing for a negative offset
    let filein := if 0 ≤ header.psize then bytes.drop header.psize.toNat else filein
    bmpReadArrays a allocs header.xsize header.ysize filein

/-! ### Writing -/

/-- The byte that `fputc` writes. -/
def byteOf (c : Int) : UInt8 := UInt8.ofNat (toUnsigned 8 c)

def fputc (c : Int) (fileout : List UInt8) : List UInt8 := fileout ++ [byteOf c]

/-- `write_u_short_int`. -/
def writeUShortInt (byteSwap : Bool) (v : Nat) (fileout : List UInt8) : List UInt8 :=
  let chi := v / 256 % 256
  let clo := v % 256
  if byteSwap then fputc chi (fputc clo fileout) else fputc clo (fputc chi fileout)

/-- `write_u_long_int`. -/
def writeULongInt (byteSwap : Bool) (v : Nat) (fileout : List UInt8) : List UInt8 :=
  let hi := v / 65536 % 65536
  let lo := v % 65536
  if byteSwap then writeUShortInt byteSwap hi (writeUShortInt byteSwap lo fileout)
  else writeUShortInt byteSwap lo (writeUShortInt byteSwap hi fileout)

/-- `bmp_write_header`. -/
def bmpWriteHeader (a : Abi) (byteSwap : Bool) (xsize ysize : Int) (fileout : List UInt8) :
    Except BmpFault (List UInt8) := do
  let fileout := fputc 'M'.toNat (fputc 'B'.toNat fileout)
  let row ← defined (int32 (3 * xsize))
  let size ← defined (int32 (row * ysize))
  let size ← defined (int32 (size + 54))
  let fileout := writeULongInt byteSwap (toUnsigned a.bits size) fileout
  let fileout := writeUShortInt byteSwap 0 fileout
  let fileout := writeUShortInt byteSwap 0 fileout
  let fileout := writeULongInt byteSwap 54 fileout
  let fileout := writeULongInt byteSwap 40 fileout
  let fileout := writeULongInt byteSwap (toUnsigned a.bits xsize) fileout
  let fileout := writeULongInt byteSwap (toUnsigned a.bits ysize) fileout
  let fileout := writeUShortInt byteSwap 1 fileout
  let fileout := writeUShortInt byteSwap 24 fileout
  tryLoop 6 (fun _ fileout => pure (writeULongInt byteSwap 0 fileout)) fileout

/-- The body of the loops over the pixels. -/
def bmpWritePixel (xsize ysize : Int) (rarray garray barray : Block Int) (i j : Nat) (fileout : List UInt8) :
    Except BmpFault (List UInt8) := do
  let k ← defined (int32 ((ysize - i - 1) * xsize + j))
  let blue ← defined (fetch barray k.toNat)
  let green ← defined (fetch garray k.toNat)
  let red ← defined (fetch rarray k.toNat)
  pure (fputc red (fputc green (fputc blue fileout)))

/-- `bmp_write_data`. -/
def bmpWriteData (xsize ysize : Int) (rarray garray barray : Block Int) (fileout : List UInt8) :
    Except BmpFault (List UInt8) := do
  let row ← defined (int32 (3 * xsize))
  let padding := (4 - row.tmod 4).tmod 4
  let scanline ← defined (int32 (padding + row))
  tryLoop ysize.toNat (fun i fileout => do
    let fileout ← tryLoop xsize.toNat (bmpWritePixel xsize ysize rarray garray barray i) fileout
    tryLoop (scanline - row).toNat (fun _ fileout => pure (fputc 0 fileout)) fileout) fileout

/-- `bmp_write`, and the file that it writes. -/
def bmpWrite (a : Abi) (byteSwap fopen : Bool) (xsize ysize : Int) (rarray garray barray : Block Int) :
    Except BmpFault (List UInt8) := do
  if fopen = false then throw .failed
  else
    let fileout ← bmpWriteHeader a byteSwap xsize ysize []
    bmpWriteData xsize ysize rarray garray barray fileout

end Vdsp

import Hdc.Transfer.Path
import Hdc.Lib.FixedRecord

/-!
The header of an entry of an archive, `header.cpp`.

A header is 512 bytes. The name of an entry stands in two fields, the last 99 bytes of it
in `name` and what comes before them in `prefix`; the size is octal text; the checksum is
written and never read.

`snprintf_s` cuts off what does not fit, and the source goes on. Where it fills `prefix`
it gives the width of `name`, so a name of 199 bytes or more loses its middle.

* `name_updataName_short`, `name_updataName_long`: the name that is read back;
* `size_updataSize`: sizes below 8 to the 11 are read back.
-/

namespace Hdc.Tar

open FixedRecord List Record Nat

def headerLen : Nat := 512
def headerNameLen : Nat := 100
def headerSizeLen : Nat := 12
def headerChksumLen : Nat := 8
def headerPrefixLen : Nat := 155
def headerMaxFileLen : Nat := 255

/-- The kinds of entries. -/
inductive TypeFlage where
  | invalid
  | ordinaryFile
  | hardLink
  | softLink
  | characterDevice
  | blockDevice
  | directory
  | fifo
  | reserve
deriving DecidableEq, Repr

def TypeFlage.code : TypeFlage → UInt8
  | .invalid => 0
  | .ordinaryFile => 48
  | .hardLink => 49
  | .softLink => 50
  | .characterDevice => 51
  | .blockDevice => 52
  | .directory => 53
  | .fifo => 54
  | .reserve => 55

def TypeFlage.ofCode : UInt8 → TypeFlage
  | 48 => .ordinaryFile
  | 49 => .hardLink
  | 50 => .softLink
  | 51 => .characterDevice
  | 52 => .blockDevice
  | 53 => .directory
  | 54 => .fifo
  | 55 => .reserve
  | _ => .invalid

theorem TypeFlage.ofCode_code (type : TypeFlage) : ofCode type.code = type := by
  cases type <;> rfl

/-! ### Numbers in octal -/

/-- `DecimalToOctalString`. -/
def decimalToOctalString (decimalNumber length : Nat) : Bytes :=
  let digits :=
    if decimalNumber = 0 then [digitChar 0] else (digits 8 decimalNumber).reverse.map digitChar
  List.replicate (length - digits.length) 48 ++ digits

def isOctal (byte : UInt8) : Bool := 48 ≤ byte && byte ≤ 55

/-- `stoull` with base 8, of a text of octal digits. -/
def octalValue (text : Bytes) : Nat :=
  text.foldl (fun value byte => value * 8 + (byte.toNat - 48)) 0

theorem octalValue_append_singleton (text : Bytes) (byte : UInt8) :
    octalValue (text ++ [byte]) = octalValue text * 8 + (byte.toNat - 48) := by
  simp [octalValue]

theorem octalValue_zeros_append (count : Nat) (text : Bytes) :
    octalValue (List.replicate count 48 ++ text) = octalValue text := by
  induction count with
  | zero => rfl
  | succ count ih => exact ih

theorem isOctal_digitChar {digit : Nat} (small : digit < 8) : isOctal (digitChar digit) = true := by
  have value := Base.toNat_digitChar (small.trans (by decide))
  simp only [isOctal, UInt8.le_iff_toNat_le, value, Bool.and_eq_true, decide_eq_true_eq]
  exact ⟨Nat.le_add_right 48 _, Nat.add_le_add_left (Nat.le_of_lt_succ small) 48⟩

theorem octalValue_digits {digits : List Nat} (small : ∀ digit ∈ digits, digit < 8) :
    octalValue (digits.reverse.map digitChar) = ofDigits 8 digits := by
  induction digits with
  | nil => rfl
  | cons digit digits ih =>
    obtain ⟨here, later⟩ := forall_mem_cons.mp small
    rw [reverse_cons, map_append, map_singleton, octalValue_append_singleton,
      ih later, Base.toNat_digitChar (here.trans (by decide)), ofDigits_cons]
    omega

/-- What is written with enough digits has that many, and is read back. -/
theorem decimalToOctalString_spec {n width : Nat} (small : n < 8 ^ width) (wide : 0 < width) :
    let text := decimalToOctalString n width
    text.length = width ∧ text.all isOctal = true ∧ octalValue text = n := by
  have zeros : ∀ count, (List.replicate count (48 : UInt8)).all isOctal = true := by
    intro count
    rw [all_eq_true]
    intro byte mem
    rw [eq_of_mem_replicate mem]
    rfl
  by_cases zero : n = 0
  · subst zero
    simp only [decimalToOctalString, if_true]
    refine ⟨?_, ?_, octalValue_zeros_append _ _⟩
    · simp only [length_append, length_replicate, length_singleton]
      omega
    · rw [all_append, zeros]
      rfl
  · have bound : ∀ digit ∈ digits 8 n, digit < 8 := fun digit mem =>
      digits_lt_base (by decide) mem
    have fits : (digits 8 n).length ≤ width := (digits_length_le_iff (by decide) n).mpr small
    simp only [decimalToOctalString, if_neg zero]
    refine ⟨?_, ?_, ?_⟩
    · simp only [length_append, length_replicate, length_map, length_reverse]
      omega
    · rw [all_append, zeros, Bool.true_and, all_map, all_reverse, all_eq_true]
      intro digit mem
      exact isOctal_digitChar (bound _ mem)
    · rw [octalValue_zeros_append, octalValue_digits bound, ofDigits_digits]

/-! ### Headers -/

abbrev Header := Record UInt8 headerLen

/-- What `snprintf_s` with the format `%s` writes: as much as `count` allows, and a NUL. -/
def snprintfS (count : Nat) (text : Bytes) : Bytes := (cStr text).take count ++ [0]

theorem length_snprintfS_le (count : Nat) (text : Bytes) :
    (snprintfS count text).length ≤ count + 1 := by
  rw [snprintfS, length_append, length_take]
  exact Nat.add_le_add_right (Nat.min_le_left ..) 1

namespace Header

/-- `snprintf_s` into the field at `off`. -/
def print (header : Header) (off count : Nat) (text : Bytes) (fits : off + count < headerLen) :
    Header :=
  header.put off (snprintfS count text) ((Nat.add_le_add_left (length_snprintfS_le ..) off).trans fits)

/-- `Header()`. -/
def new : Header :=
  ((fill headerLen 0).put 257 (str "ustar ") (by decide)).put 263 [32, 0] (by decide)

/-- `Header(data, dataLen)`. -/
def ofData (data : Bytes) : Header :=
  if bad : data = [] ∨ headerLen < data.length then fill headerLen 0
  else (fill headerLen 0).put 0 data (by rw [not_or] at bad; omega)

/-- `Name`. -/
def name (header : Header) : Bytes :=
  let front := cStr (header.get 345 headerPrefixLen)
  let back := cStr (header.get 0 headerNameLen)
  if 4096 < front.length + back.length then [] else front ++ back

/-- `UpdataName`. -/
def updataName (header : Header) (fileName : Bytes) : Bool × Header :=
  let len := fileName.length
  if headerMaxFileLen ≤ len then (false, header)
  else if len < headerNameLen then
    (true, header.print 0 (headerNameLen - 1) fileName (by decide))
  else
    let front := fileName.take (len - (headerNameLen - 1))
    let back := fileName.drop (len - (headerNameLen - 1))
    -- the width of the other field is given here too
    (true, (header.print 0 (headerNameLen - 1) back (by decide)).print 345 (headerNameLen - 1) front
      (by decide))

/-- `Size`. -/
def size (header : Header) : Nat :=
  let octalStr := header.get 124 (headerSizeLen - 1)
  if octalStr.all isOctal then octalValue octalStr else 0

/-- `UpdataSize`. -/
def updataSize (header : Header) (fileLen : Nat) : Header :=
  header.print 124 (headerSizeLen - 1) (decimalToOctalString fileLen (headerSizeLen - 1)) (by decide)

/-- `FileType`. -/
def fileType (header : Header) : TypeFlage := .ofCode ((header.get 156 1).headD 0)

/-- `UpdataFileType`. -/
def updataFileType (header : Header) (fileType : TypeFlage) : Header :=
  header.put 156 [fileType.code] (by rw [length_singleton]; decide)

/-- `IsInvalid`. -/
def isInvalid (header : Header) : Bool := header.fileType = .invalid

/-- `UpdataCheckSum`. -/
def updataCheckSum (header : Header) : Header :=
  let sum := (header.cells.map UInt8.toNat).sum + 256
  header.print 148 (headerChksumLen - 1) (decimalToOctalString sum (headerChksumLen - 1)) (by decide)

/-- `GetBytes`. -/
def getBytes (header : Header) : Bytes := header.updataCheckSum.cells

/-! ### One field and the others -/

section Fields

variable {header : Header} {off : Nat} {data : Bytes} {fits : off + data.length ≤ headerLen}

theorem name_put (behind : headerNameLen ≤ off) (before : off + data.length ≤ 345) :
    name (header.put off data fits) = header.name := by
  rw [name, name, get_put_after before, get_put_before (by omega)]

theorem size_put (apart : off + data.length ≤ 124 ∨ 135 ≤ off) :
    size (header.put off data fits) = header.size := by
  have same : (header.put off data fits).get 124 (headerSizeLen - 1) =
      header.get 124 (headerSizeLen - 1) := by
    rcases apart with before | after
    · exact get_put_after before
    · exact get_put_before after
  rw [size, size, same]

theorem fileType_put (apart : off + data.length ≤ 156 ∨ 157 ≤ off) :
    fileType (header.put off data fits) = header.fileType := by
  have same : (header.put off data fits).get 156 1 = header.get 156 1 := by
    rcases apart with before | after
    · exact get_put_after before
    · exact get_put_before after
  rw [fileType, fileType, same]

theorem end_print_le (off count : Nat) (text : Bytes) :
    off + (snprintfS count text).length ≤ off + (count + 1) :=
  Nat.add_le_add_left (length_snprintfS_le ..) _

section Print

variable {count : Nat} {text : Bytes} (fits : off + count < headerLen)

theorem name_print (behind : headerNameLen ≤ off) (before : off + (count + 1) ≤ 345) :
    (header.print off count text fits).name = header.name := by
  rw [print, name_put behind ((end_print_le ..).trans before)]

theorem size_print (apart : off + (count + 1) ≤ 124 ∨ 135 ≤ off) :
    (header.print off count text fits).size = header.size := by
  rw [print, size_put (apart.imp_left (end_print_le ..).trans)]

theorem fileType_print (apart : off + (count + 1) ≤ 156 ∨ 157 ≤ off) :
    (header.print off count text fits).fileType = header.fileType := by
  rw [print, fileType_put (apart.imp_left (end_print_le ..).trans)]

end Print

theorem get_print_before {count at' len : Nat} {text : Bytes} {fits : off + count < headerLen}
    (before : at' + len ≤ off) : (header.print off count text fits).get at' len =
    header.get at' len := get_put_before before

/-- A field that was printed into is read up to the NUL. -/
theorem cStr_get_print {count len : Nat} {text : Bytes} {fits : off + count < headerLen}
    (wide : count < len) :
    cStr ((header.print off count text fits).get off len) = (cStr text).take count := by
  have free : 0 ∉ (cStr text).take count := fun mem => cStr_free text (mem_of_mem_take mem)
  rw [print, get_put ((length_snprintfS_le ..).trans wide), snprintfS, append_assoc,
    cStr_append, if_neg free]
  simp [cStr]

end Fields

/-! ### Reading back -/

section

variable (header : Header)
include header

theorem name_eq : header.name =
    cStr (header.get 345 headerPrefixLen) ++ cStr (header.get 0 headerNameLen) := by
  have short : ∀ off len, (cStr (header.get off len)).length ≤ len := fun off len =>
    (cStr_isPrefix _).length_le.trans (length_take_le ..)
  have front := short 345 headerPrefixLen
  have back := short 0 headerNameLen
  refine if_neg ?_
  simp only [headerPrefixLen, headerNameLen] at front back ⊢
  omega

/-- A name that fits the field is read back behind what stands in the other one. -/
theorem name_updataName_short {fileName : Bytes} (free : 0 ∉ fileName)
    (short : fileName.length < headerNameLen) :
    (header.updataName fileName).2.name = cStr (header.get 345 headerPrefixLen) ++ fileName := by
  have small : ¬ headerMaxFileLen ≤ fileName.length :=
    not_le.mpr (short.trans_le (by decide))
  rw [updataName, if_neg small, if_pos short, name_eq, cStr_get_print (by decide), cStr_of_free free,
    take_of_length_le (le_sub_one_of_lt short), print,
    get_put_after ((end_print_le ..).trans (by decide))]

/-- Of a longer name at most 99 bytes are kept in front of the last 99. -/
theorem name_updataName_long {fileName : Bytes} (free : 0 ∉ fileName)
    (long : headerNameLen ≤ fileName.length) (fits : fileName.length < headerMaxFileLen) :
    (header.updataName fileName).2.name =
    (fileName.take (fileName.length - 99)).take 99 ++ fileName.drop (fileName.length - 99) := by
  have frontFree : 0 ∉ fileName.take (fileName.length - (headerNameLen - 1)) :=
    fun mem => free (mem_of_mem_take mem)
  have backFree : 0 ∉ fileName.drop (fileName.length - (headerNameLen - 1)) :=
    fun mem => free (mem_of_mem_drop mem)
  have backLength : (fileName.drop (fileName.length - (headerNameLen - 1))).length ≤
      headerNameLen - 1 := by
    rw [length_drop]
    omega
  rw [updataName, if_neg (not_le.mpr fits), if_neg (not_lt.mpr long), name_eq,
    cStr_get_print (by decide), cStr_of_free frontFree, get_print_before (by decide),
    cStr_get_print (by decide), cStr_of_free backFree, take_of_length_le backLength]
  rfl

theorem size_updataSize {fileLen : Nat} (small : fileLen < 8 ^ 11) :
    (header.updataSize fileLen).size = fileLen := by
  obtain ⟨length, octal, value⟩ := decimalToOctalString_spec small (by decide)
  have free : 0 ∉ decimalToOctalString fileLen 11 := by
    intro mem
    cases all_eq_true.mp octal 0 mem
  have text : snprintfS 11 (decimalToOctalString fileLen 11) =
      decimalToOctalString fileLen 11 ++ [0] := by
    rw [snprintfS, cStr_of_free free, take_of_length_le length.le]
  have field : (header.updataSize fileLen).get 124 (headerSizeLen - 1) =
      decimalToOctalString fileLen 11 := by
    rw [updataSize, print, get_put_inside]
    · change (snprintfS 11 (decimalToOctalString fileLen 11)).take 11 = _
      rw [text, take_append_of_le_length length.ge, take_of_length_le length.le]
    · change 11 ≤ (snprintfS 11 (decimalToOctalString fileLen 11)).length
      rw [text, length_append, length]
      decide
  rw [size, field, if_pos octal, value]

theorem fileType_updataFileType (type : TypeFlage) :
    (header.updataFileType type).fileType = type := by
  rw [fileType, updataFileType, get_put_inside (le_refl 1)]
  exact TypeFlage.ofCode_code _

end

section Others

variable (header : Header)

@[simp] theorem name_updataSize (fileLen : Nat) : (header.updataSize fileLen).name = header.name :=
  name_print (by decide) (by decide) (by decide)

@[simp] theorem name_updataFileType (type : TypeFlage) :
    (header.updataFileType type).name = header.name := by
  rw [updataFileType, name_put (by decide) (by rw [length_singleton]; decide)]

@[simp] theorem name_updataCheckSum : header.updataCheckSum.name = header.name :=
  name_print (by decide) (by decide) (by decide)

@[simp] theorem size_updataFileType (type : TypeFlage) :
    (header.updataFileType type).size = header.size := by
  rw [updataFileType, size_put (.inr (by decide))]

@[simp] theorem size_updataCheckSum : header.updataCheckSum.size = header.size :=
  size_print (by decide) (.inr (by decide))

@[simp] theorem fileType_updataSize (fileLen : Nat) :
    (header.updataSize fileLen).fileType = header.fileType :=
  fileType_print (by decide) (.inl (by decide))

@[simp] theorem fileType_updataCheckSum : header.updataCheckSum.fileType = header.fileType :=
  fileType_print (by decide) (.inl (by decide))

@[simp] theorem size_updataName (fileName : Bytes) :
    (header.updataName fileName).2.size = header.size := by
  rw [updataName]
  split
  · rfl
  · split
    · exact size_print (by decide) (.inl (by decide))
    · exact (size_print (by decide) (.inr (by decide))).trans (size_print (by decide) (.inl (by decide)))

@[simp] theorem fileType_updataName (fileName : Bytes) :
    (header.updataName fileName).2.fileType = header.fileType := by
  rw [updataName]
  split
  · rfl
  · split
    · exact fileType_print (by decide) (.inl (by decide))
    · exact (fileType_print (by decide) (.inr (by decide))).trans (fileType_print (by decide) (.inl (by decide)))

end Others

/-- The bytes of a header are read as that header. -/
theorem ofData_getBytes (header : Header) : ofData header.getBytes = header.updataCheckSum := by
  have length : header.getBytes.length = headerLen := header.updataCheckSum.length_cells
  have good : ¬ (header.getBytes = [] ∨ headerLen < header.getBytes.length) := by
    rw [← length_eq_zero_iff, length]
    decide
  rw [ofData, dif_neg good]
  exact put_cells _ _

end Header

end Hdc.Tar

/-
Trimming of a directory (trimToFit and sortFiles of storage/StorageManager.cpp, with StrToInt64 of config/ConfigKey.cpp).
Files that are too old go first; when the others are too many or too large they are sorted, local histories after reports
and older files after newer ones, and files are taken off the end until both limits are met.

The name of a file is parsed and printed again before the file is looked at. Names are those in the directory, without its
path, and file operations succeed. An `int` is kept in the range of 32 bits.
-/
import Statsd.Storage.StorageManager

namespace Statsd

/-! ## Numbers in names -/

/-- `isspace`. -/
def isSpace (c : Char) : Bool := [' ', '\t', '\n', '\x0b', '\x0c', '\r'].contains c

/-- The value of a digit in bases up to 36; characters that are no digits have the value 36. -/
def digitValue (c : Char) : Nat :=
  if c.isDigit then c.toNat - 48
  else if c.isLower then c.toNat - 87
  else if c.isUpper then c.toNat - 55
  else 36

/-- Whether a minus sign is read, and what comes after the sign. -/
def signPrefix : List Char → Bool × List Char
  | '-' :: str => (true, str)
  | '+' :: str => (false, str)
  | str => (false, str)

/-- The base and the digits that `strtoll` reads when the base is zero. -/
def basePrefix : List Char → Nat × List Char
  | '0' :: x :: digit :: digits =>
    if (x = 'x' ∨ x = 'X') ∧ digitValue digit < 16 then (16, digit :: digits) else (8, '0' :: x :: digit :: digits)
  | '0' :: digits => (8, '0' :: digits)
  | digits => (10, digits)

/-- Zero unless the whole text is a number; numbers out of range are replaced by the nearest one. -/
def StrToInt64 (str : List Char) : Int :=
  let str := str.dropWhile isSpace
  let (negative, str) := signPrefix str
  let (base, digits) := basePrefix str
  if digits.isEmpty || digits.any fun digit => decide (digitValue digit ≥ base) then 0
  else
    let value := digits.foldl (fun value digit => base * value + digitValue digit) 0
    max (-2 ^ 63) (min (2 ^ 63 - 1) (if negative then -(value : Int) else value))

theorem digitValue_of_isDigit {c : Char} (h : c.isDigit = true) : digitValue c = c.toNat - 48 ∧ digitValue c < 10 := by
  have hvalue : digitValue c = c.toNat - 48 := by
    unfold digitValue
    rw [if_pos h]
  refine ⟨hvalue, ?_⟩
  rw [hvalue]
  simp only [Char.isDigit, Bool.and_eq_true, decide_eq_true_eq, ge_iff_le] at h
  have h9 : c.toNat ≤ 57 := h.2
  omega

theorem head_toDigits {n : Nat} (h : 0 < n) : ∀ c ∈ (Nat.toDigits 10 n).head?, c ≠ '0' := by
  induction n using Nat.strong_induction_on with
  | _ n ih =>
    by_cases hn : n < 10
    · rw [Nat.toDigits_of_lt_base hn]
      rintro c hc rfl
      simp only [List.head?_cons, Option.mem_def, Option.some.injEq, Nat.digitChar_eq_zero] at hc
      omega
    · rw [Nat.toDigits_of_base_le (by decide) (by omega)]
      have hrec := ih (n / 10) (by omega) (by omega)
      cases hd : Nat.toDigits 10 (n / 10) with
      | nil => exact absurd hd Nat.toDigits_ne_nil
      | cons d ds =>
        rw [hd] at hrec
        exact hrec

theorem basePrefix_toDigits (n : Nat) :
    (basePrefix (Nat.toDigits 10 n)).2 = Nat.toDigits 10 n ∧
      ((basePrefix (Nat.toDigits 10 n)).1 = 10 ∨ (basePrefix (Nat.toDigits 10 n)).1 = 8 ∧ n = 0) := by
  cases Nat.eq_zero_or_pos n with
  | inl h =>
    subst h
    exact ⟨rfl, .inr ⟨rfl, rfl⟩⟩
  | inr h =>
    have hhead := head_toDigits h
    generalize Nat.toDigits 10 n = digits at hhead ⊢
    cases digits with
    | nil => exact ⟨rfl, .inl rfl⟩
    | cons c cs =>
      have hc : c ≠ '0' := hhead c rfl
      have hplain : basePrefix (c :: cs) = (10, c :: cs) := by
        unfold basePrefix
        split
        · rename_i heq
          exact absurd (List.cons.inj heq).1 hc
        · rename_i heq
          exact absurd (List.cons.inj heq).1 hc
        · rfl
      rw [hplain]
      exact ⟨rfl, .inl rfl⟩

theorem read_toDigits (n : Nat) :
    ((basePrefix (Nat.toDigits 10 n)).2.isEmpty ||
      (basePrefix (Nat.toDigits 10 n)).2.any fun digit => decide (digitValue digit ≥ (basePrefix (Nat.toDigits 10 n)).1)) = false ∧
    (basePrefix (Nat.toDigits 10 n)).2.foldl (fun value digit => (basePrefix (Nat.toDigits 10 n)).1 * value + digitValue digit) 0 = n := by
  have hdigit : ∀ c ∈ Nat.toDigits 10 n, digitValue c = c.toNat - 48 ∧ digitValue c < 10 := fun c hc =>
    digitValue_of_isDigit (Nat.isDigit_of_mem_toDigits (by decide) (by decide) hc)
  obtain ⟨hdigits, hbase⟩ := basePrefix_toDigits n
  rw [hdigits]
  rcases hbase with hbase | ⟨hbase, rfl⟩
  · rw [hbase]
    constructor
    · rw [Bool.or_eq_false_iff, List.isEmpty_eq_false_iff, List.any_eq_false]
      refine ⟨Nat.toDigits_ne_nil, fun c hc => ?_⟩
      simp only [decide_eq_true_eq, not_le]
      exact (hdigit c hc).2
    · calc (Nat.toDigits 10 n).foldl (fun value digit => 10 * value + digitValue digit) 0
          = Nat.ofDigitChars 10 (Nat.toDigits 10 n) 0 :=
            List.foldl_ext _ _ _ fun value c hc => by rw [(hdigit c hc).1]; rfl
        _ = n := Nat.ofDigitChars_ten_toDigits
  · rw [hbase]
    exact ⟨rfl, rfl⟩

theorem not_isSpace_of_isDigit {c : Char} (h : c.isDigit = true) : isSpace c = false := by
  cases hspace : isSpace c with
  | false => rfl
  | true =>
    have hmem : c ∈ [' ', '\t', '\n', '\x0b', '\x0c', '\r'] := by simpa [isSpace] using hspace
    fin_cases hmem <;> exact absurd h (by decide)

theorem StrToInt64_decimal {i : Int} (hlow : -2 ^ 63 ≤ i) (hhigh : i < 2 ^ 63) : StrToInt64 (decimal i) = i := by
  obtain ⟨hread, hvalue⟩ := read_toDigits i.natAbs
  unfold StrToInt64 decimal
  by_cases hneg : i < 0
  · rw [if_pos hneg]
    have hdrop : ('-' :: Nat.toDigits 10 i.natAbs).dropWhile isSpace = '-' :: Nat.toDigits 10 i.natAbs := rfl
    have hsign : signPrefix ('-' :: Nat.toDigits 10 i.natAbs) = (true, Nat.toDigits 10 i.natAbs) := rfl
    rw [hdrop]
    simp only [hsign]
    rw [hread, hvalue]
    simp only [Bool.false_eq_true, if_false, if_true]
    omega
  · rw [if_neg hneg]
    obtain ⟨c, cs, hcs⟩ := List.exists_cons_of_ne_nil (Nat.toDigits_ne_nil (n := i.natAbs) (b := 10))
    have hc : c.isDigit = true :=
      Nat.isDigit_of_mem_toDigits (by decide) (by decide) (hcs ▸ List.mem_cons_self : c ∈ Nat.toDigits 10 i.natAbs)
    have hdrop : (Nat.toDigits 10 i.natAbs).dropWhile isSpace = Nat.toDigits 10 i.natAbs := by
      rw [hcs, List.dropWhile_cons, not_isSpace_of_isDigit hc]
      rfl
    have hsign : signPrefix (Nat.toDigits 10 i.natAbs) = (false, Nat.toDigits 10 i.natAbs) := by
      rw [hcs]
      unfold signPrefix
      split
      · rename_i heq
        rw [(List.cons.inj heq).1] at hc
        exact absurd hc (by decide)
      · rename_i heq
        rw [(List.cons.inj heq).1] at hc
        exact absurd hc (by decide)
      · rfl
    rw [hdrop]
    simp only [hsign]
    rw [hread, hvalue]
    simp only [Bool.false_eq_true, if_false]
    omega

namespace Storage

/-! ## Names -/

/-- The parsed parts of a name. -/
structure ParsedName where
  mTimestampSec : Int
  mUid : Int
  mConfigId : Int
  mIsHistory : Bool

/-- `getFullFileName`, in the directory. -/
def ParsedName.getFullFileName (p : ParsedName) : FileName :=
  decimal p.mTimestampSec ++ '_' :: (decimal p.mUid ++ '_' :: (decimal p.mConfigId ++ if p.mIsHistory then "_history".toList else []))

/-- An `int` has 32 bits. -/
def toInt (i : Int) : Int := i.bmod (2 ^ 32)

/-- The tokens that `strtok` finds between underscores. -/
def tokens (name : FileName) : List FileName := (name.splitOn '_').filter fun token => !token.isEmpty

/-- A name of less than three tokens is corrupted: its timestamp is -1, and the other parts are not used. -/
def parseFileName (name : FileName) : ParsedName :=
  match tokens name with
  | timestamp :: uid :: id :: rest =>
    ⟨StrToInt64 timestamp, toInt (StrToInt64 uid), StrToInt64 id, decide (rest.head? = some "history".toList)⟩
  | _ => ⟨-1, 0, 0, false⟩

/-! ## Trimming -/

def kMaxAgeSecond : Int := 60 * 60 * 24 * 30
def kMaxLocalHistoryAgeSecond : Int := 60 * 60 * 24 * 2
def kMaxFileNumber : Nat := 1000
def kMaxFileSize : Int := 50 * 1024 * 1024

structure FileInfo where
  mFileName : FileName
  mIsHistory : Bool
  mFileSizeBytes : Int
  mFileAgeSec : Int

/-- The comparator of `sortFiles`. -/
def comesBefore (lhs rhs : FileInfo) : Bool :=
  if lhs.mIsHistory && !rhs.mIsHistory then false
  else if rhs.mIsHistory && !lhs.mIsHistory then true
  else if lhs.mFileAgeSec < rhs.mFileAgeSec then true
  else if lhs.mFileAgeSec > rhs.mFileAgeSec then false
  else decide (rhs.mFileName < lhs.mFileName)

def sortFiles (fileNames : List FileInfo) : List FileInfo := fileNames.mergeSort fun lhs rhs => !comesBefore rhs lhs

/-- The size of a file that is opened, zero for one that is not there. -/
def fileSize (d : Directory) (name : FileName) : Int :=
  match d.lookup name with
  | some bytes => toInt bytes.length
  | none => 0

/-- The directory as files are deleted, the size of the files that stay so far, and these files. -/
structure Scan where
  files : Directory
  totalFileSize : Int
  fileNames : List FileInfo

/-- The part of the name that is parsed, and the name of the file. -/
def parseName (parseTimestampOnly : Bool) (name : FileName) : ParsedName × FileName :=
  if parseTimestampOnly then (⟨StrToInt64 ((tokens name).headD []), 0, 0, false⟩, name)
  else (parseFileName name, (parseFileName name).getFullFileName)

/-- One name of the directory. -/
def scanFile (nowSec : Int) (parseTimestampOnly : Bool) (s : Scan) (name : FileName) : Scan :=
  if isHidden name then s
  else
    let (output, file_name) := parseName parseTimestampOnly name
    if output.mTimestampSec = -1 then s
    else
      let fileAge := nowSec - output.mTimestampSec
      if fileAge > kMaxAgeSecond ∨ (output.mIsHistory = true ∧ fileAge > kMaxLocalHistoryAgeSecond) then
        { s with files := deleteFile s.files file_name }
      else
        { s with
          totalFileSize := toInt (s.totalFileSize + fileSize s.files file_name)
          fileNames := s.fileNames ++ [⟨file_name, output.mIsHistory, fileSize s.files file_name, fileAge⟩] }

/-- There are too many files, or they are too large. -/
def overLimit (number : Nat) (totalFileSize : Int) : Bool := decide (number > kMaxFileNumber) || decide (totalFileSize > kMaxFileSize)

/-- Files are removed until the limits are met; the list has the last file first. -/
def removeFromBack (files : Directory) (totalFileSize : Int) : List FileInfo → Directory
  | [] => files
  | file :: rest =>
    if overLimit (rest.length + 1) totalFileSize then
      removeFromBack (deleteFile files file.mFileName) (toInt (totalFileSize - file.mFileSizeBytes)) rest
    else files

def trimToFit (readdir : Directory → List FileName) (d : Directory) (nowSec : Int) (parseTimestampOnly : Bool) : Directory :=
  let s := (readdir d).foldl (scanFile nowSec parseTimestampOnly) ⟨d, 0, []⟩
  let fileNames := if overLimit s.fileNames.length s.totalFileSize then sortFiles s.fileNames else s.fileNames
  removeFromBack s.files s.totalFileSize fileNames.reverse

/-! ## The files that statsd writes -/

/-- A file of the data directory or of the config directory: a wall clock second, a uid and a config id, and whether the file
is a local history. -/
structure DataFile where
  timestampSec : Int
  uid : Int
  id : Int
  isHistory : Bool
  timestamp_range : 0 ≤ timestampSec ∧ timestampSec < 2 ^ 63
  uid_range : -2 ^ 31 ≤ uid ∧ uid < 2 ^ 31
  id_range : -2 ^ 63 ≤ id ∧ id < 2 ^ 63

namespace DataFile

def parsed (f : DataFile) : ParsedName := ⟨f.timestampSec, f.uid, f.id, f.isHistory⟩

/-- `getDataFileName` and `getDataHistoryFileName`. -/
def name (f : DataFile) : FileName := f.parsed.getFullFileName

end DataFile

theorem toInt_of_range {i : Int} (hlow : -2 ^ 31 ≤ i) (hhigh : i < 2 ^ 31) : toInt i = i := by
  unfold toInt
  rw [Int.bmod_eq_of_le (by omega) (by omega)]

theorem tokens_last (i : Int) : tokens (decimal i) = [decimal i] := by
  unfold tokens
  rw [List.splitOn_eq_singleton (underscore_notMem_decimal i), List.filter_cons_of_pos, List.filter_nil]
  simpa using decimal_ne_nil i

theorem tokens_decimal (i : Int) (rest : FileName) : tokens (decimal i ++ '_' :: rest) = decimal i :: tokens rest := by
  have hlast := tokens_last i
  unfold tokens at hlast ⊢
  rw [List.splitOn_append_cons_self, List.filter_append, hlast, List.singleton_append]

theorem parseFileName_name (f : DataFile) : parseFileName f.name = f.parsed := by
  have hhistory : tokens "history".toList = ["history".toList] := by decide
  unfold DataFile.name ParsedName.getFullFileName DataFile.parsed
  dsimp only
  have hrest : tokens (decimal f.id ++ if f.isHistory then "_history".toList else []) =
      decimal f.id :: if f.isHistory then ["history".toList] else [] := by
    cases f.isHistory with
    | true => exact (tokens_decimal f.id "history".toList).trans (by rw [hhistory]; rfl)
    | false => simpa using tokens_last f.id
  unfold parseFileName
  rw [tokens_decimal, tokens_decimal, hrest]
  dsimp only
  obtain ⟨hts, hts'⟩ := f.timestamp_range
  obtain ⟨huid, huid'⟩ := f.uid_range
  rw [StrToInt64_decimal (by omega) hts', StrToInt64_decimal (by omega) (by omega), StrToInt64_decimal f.id_range.1 f.id_range.2,
    toInt_of_range huid huid']
  congr 1
  cases f.isHistory <;> simp

theorem getFullFileName_name (f : DataFile) : (parseFileName f.name).getFullFileName = f.name := by
  rw [parseFileName_name]
  rfl

theorem name_injective : Function.Injective DataFile.name := by
  intro f g h
  have hparsed : f.parsed = g.parsed := by rw [← parseFileName_name, h, parseFileName_name]
  obtain ⟨_, _, _, _, _, _, _⟩ := f
  obtain ⟨_, _, _, _, _, _, _⟩ := g
  simpa [DataFile.parsed] using hparsed

theorem not_isHidden_name (f : DataFile) : isHidden f.name = false := by
  have hts := f.timestamp_range.1
  obtain ⟨c, cs, hcs⟩ := List.exists_cons_of_ne_nil (decimal_ne_nil f.timestampSec)
  have hc : c.isDigit = true := by
    have hmem : c ∈ decimal f.timestampSec := hcs ▸ List.mem_cons_self
    unfold decimal at hmem
    rw [if_neg (not_lt.2 hts)] at hmem
    exact Nat.isDigit_of_mem_toDigits (by decide) (by decide) hmem
  unfold isHidden DataFile.name ParsedName.getFullFileName DataFile.parsed
  dsimp only
  rw [hcs, List.cons_append, List.head?_cons]
  cases hdot : (some c == some '.') with
  | false => rfl
  | true =>
    rw [Option.some.inj (eq_of_beq hdot)] at hc
    exact absurd hc (by decide)

/-! ## What trimming is for -/

namespace DataFile

/-- The file is within its age limit. -/
def InTime (nowSec : Int) (f : DataFile) : Prop :=
  nowSec - f.timestampSec ≤ kMaxAgeSecond ∧ (f.isHistory = true → nowSec - f.timestampSec ≤ kMaxLocalHistoryAgeSecond)

instance (nowSec : Int) (f : DataFile) : Decidable (f.InTime nowSec) := inferInstanceAs (Decidable (_ ∧ _))

/-- Reports before local histories, newer files before older ones, then by name. -/
def Before (f g : DataFile) : Prop :=
  f.isHistory = false ∧ g.isHistory = true ∨
    f.isHistory = g.isHistory ∧ (g.timestampSec < f.timestampSec ∨ f.timestampSec = g.timestampSec ∧ g.name < f.name)

instance (f g : DataFile) : Decidable (f.Before g) := inferInstanceAs (Decidable (_ ∨ _))

end DataFile

/-- The bytes of a file. -/
def bytesOf (d : Directory) (name : FileName) : Nat := ((d.lookup name).map List.length).getD 0

/-- The bytes of all files. -/
def directoryBytes (d : Directory) : Nat := (d.entries.map fun file => file.2.length).sum

/-- The bytes of some files. -/
def bytesOfAll (d : Directory) (l : List DataFile) : Nat := (l.map fun f => bytesOf d f.name).sum

/-- The files meet both limits. -/
def Fits (d : Directory) (l : List DataFile) : Prop := l.length ≤ kMaxFileNumber ∧ (bytesOfAll d l : Int) ≤ kMaxFileSize

/-- Trimming leaves files within their age limits that meet both limits; what it takes off the ordered files within their age
limits is the shortest end whose removal meets both limits. -/
structure Trimmed (nowSec : Int) (d d' : Directory) : Prop where
  inTime : ∀ f : DataFile, f.name ∈ d' → f.InTime nowSec
  number : d'.entries.length ≤ kMaxFileNumber
  size : (directoryBytes d' : Int) ≤ kMaxFileSize
  best : ∃ kept removed : List DataFile,
    (kept ++ removed).Pairwise DataFile.Before ∧
    (∀ f, f ∈ kept ++ removed ↔ f.name ∈ d ∧ f.InTime nowSec) ∧
    (∀ name, d'.lookup name = if ∃ f ∈ kept, f.name = name then d.lookup name else none) ∧
    ∀ kept' removed', kept' ++ removed' = kept ++ removed → Fits d kept' → removed.length ≤ removed'.length

/-! ## The order -/

namespace DataFile

theorem before_irrefl (f : DataFile) : ¬ f.Before f := by
  unfold Before
  simp

theorem before_trans {f g k : DataFile} (h : f.Before g) (h' : g.Before k) : f.Before k := by
  unfold Before at h h' ⊢
  rcases h with ⟨hf, hg⟩ | ⟨heq, h⟩
  · rcases h' with ⟨hg', -⟩ | ⟨heq', -⟩
    · rw [hg] at hg'
      cases hg'
    · exact .inl ⟨hf, heq' ▸ hg⟩
  · rcases h' with ⟨hg, hk⟩ | ⟨heq', h'⟩
    · exact .inl ⟨heq.trans hg, hk⟩
    · refine .inr ⟨heq.trans heq', ?_⟩
      rcases h with h | ⟨hts, hname⟩
      · rcases h' with h' | ⟨hts', -⟩
        · exact .inl (h'.trans h)
        · exact .inl (hts' ▸ h)
      · rcases h' with h' | ⟨hts', hname'⟩
        · exact .inl (hts ▸ h')
        · exact .inr ⟨hts.trans hts', List.lt_trans hname' hname⟩

theorem before_or {f g : DataFile} (h : f ≠ g) : f.Before g ∨ g.Before f := by
  unfold Before
  rcases lt_trichotomy f.timestampSec g.timestampSec with hts | hts | hts
  · cases hf : f.isHistory <;> cases hg : g.isHistory <;> simp [hts]
  · have hname : f.name < g.name ∨ g.name < f.name := by
      by_contra hnot
      rw [not_or] at hnot
      exact h (name_injective (List.le_antisymm hnot.2 hnot.1))
    rcases hname with hname | hname
    · cases hf : f.isHistory <;> cases hg : g.isHistory <;> simp [hts, hname]
    · cases hf : f.isHistory <;> cases hg : g.isHistory <;> simp [hts, hname]
  · cases hf : f.isHistory <;> cases hg : g.isHistory <;> simp [hts]

/-- The record of a file. -/
def info (nowSec : Int) (d : Directory) (f : DataFile) : FileInfo :=
  ⟨f.name, f.isHistory, fileSize d f.name, nowSec - f.timestampSec⟩

theorem comesBefore_info (nowSec : Int) (d : Directory) (f g : DataFile) :
    comesBefore (f.info nowSec d) (g.info nowSec d) = decide (f.Before g) := by
  rw [Bool.eq_iff_iff, decide_eq_true_iff]
  unfold comesBefore info Before
  dsimp only
  rcases lt_trichotomy f.timestampSec g.timestampSec with hts | hts | hts
  · have h1 : ¬ nowSec - f.timestampSec < nowSec - g.timestampSec := by omega
    have h2 : nowSec - f.timestampSec > nowSec - g.timestampSec := by omega
    cases f.isHistory <;> cases g.isHistory <;> simp [h1, h2, hts.not_gt, hts.ne]
  · cases f.isHistory <;> cases g.isHistory <;> simp [hts]
  · have h1 : nowSec - f.timestampSec < nowSec - g.timestampSec := by omega
    cases f.isHistory <;> cases g.isHistory <;> simp [h1, hts]

end DataFile

/-- The files in their order. -/
def ordered (l : List DataFile) : List DataFile := l.mergeSort fun f g => !decide (g.Before f)

theorem sortFiles_info (nowSec : Int) (d : Directory) (l : List DataFile) :
    sortFiles (l.map (DataFile.info nowSec d)) = (ordered l).map (DataFile.info nowSec d) := by
  unfold sortFiles ordered
  rw [List.map_mergeSort]
  intro f _ g _
  rw [DataFile.comesBefore_info]

variable {d : Directory} {l : List DataFile}

theorem ordered_pairwise (h : l.Nodup) : (ordered l).Pairwise DataFile.Before := by
  have hle : (ordered l).Pairwise fun f g => (!decide (g.Before f)) = true := by
    refine List.pairwise_mergeSort (fun f g k hfg hgk => ?_) (fun f g => ?_) l
    · simp only [Bool.not_eq_true', decide_eq_false_iff_not] at hfg hgk ⊢
      intro hkf
      by_cases hkg : k = g
      · exact hfg (hkg ▸ hkf)
      · rcases DataFile.before_or hkg with hkg | hgk'
        · exact hgk hkg
        · exact hfg (DataFile.before_trans hgk' hkf)
    · simp only [Bool.or_eq_true, Bool.not_eq_true', decide_eq_false_iff_not]
      by_cases hgf : g.Before f
      · exact .inr fun hfg => DataFile.before_irrefl f (DataFile.before_trans hfg hgf)
      · exact .inl hgf
  have hnodup : (ordered l).Nodup := (List.mergeSort_perm l _).nodup_iff.2 h
  refine (hle.and hnodup).imp fun {f g} hfg => ?_
  simp only [Bool.not_eq_true', decide_eq_false_iff_not] at hfg
  exact (DataFile.before_or hfg.2).resolve_right hfg.1

/-! ## Sizes -/

theorem directoryBytes_eq (d : Directory) : directoryBytes d = (d.keys.map (bytesOf d)).sum := by
  unfold directoryBytes AList.keys List.keys
  rw [List.map_map]
  congr 1
  refine List.map_congr_left fun file hfile => ?_
  have hlookup : d.lookup file.1 = some file.2 := AList.mem_lookup_iff.2 hfile
  simp [bytesOf, hlookup]

theorem bytesOfAll_le (d : Directory) (hl : l.Nodup) (hmem : ∀ f ∈ l, f.name ∈ d) : bytesOfAll d l ≤ directoryBytes d := by
  have hsub : (l.map DataFile.name).Subperm d.keys := by
    refine (hl.map name_injective).subperm fun name hname => ?_
    obtain ⟨f, hf, rfl⟩ := List.mem_map.1 hname
    exact AList.mem_keys.1 (hmem f hf)
  have hbytes : bytesOfAll d l = ((l.map DataFile.name).map (bytesOf d)).sum := by
    rw [List.map_map]
    rfl
  obtain ⟨l', hperm, hsublist⟩ := hsub
  rw [hbytes, directoryBytes_eq, ← (hperm.map (bytesOf d)).sum_eq]
  exact (hsublist.map (bytesOf d)).sum_le_sum fun _ _ => Nat.zero_le _

theorem bytesOfAll_cons (d : Directory) (f : DataFile) (l : List DataFile) : bytesOfAll d (f :: l) = bytesOf d f.name + bytesOfAll d l :=
  List.sum_cons

theorem fileSize_eq (hsize : directoryBytes d < 2 ^ 31) {f : DataFile} (hmem : f.name ∈ d) :
    fileSize d f.name = bytesOf d f.name := by
  have hle := bytesOfAll_le d (List.nodup_singleton f) fun g hg => by
    rw [List.mem_singleton.1 hg]
    exact hmem
  have hsingle : bytesOfAll d [f] = bytesOf d f.name := by simp [bytesOfAll]
  rw [hsingle] at hle
  unfold fileSize bytesOf at *
  cases hlookup : d.lookup f.name with
  | none => rfl
  | some bytes =>
    rw [hlookup] at hle
    simp only [Option.map_some, Option.getD_some] at hle ⊢
    exact toInt_of_range (by omega) (by omega)

/-! ## The scan -/

theorem lookup_deleteFile (d : Directory) (name name' : FileName) :
    (deleteFile d name).lookup name' = if name = name' then none else d.lookup name' := by
  unfold deleteFile
  split
  · rename_i h
    rw [← h]
    exact AList.lookup_erase name d
  · rename_i h
    exact AList.lookup_erase_ne fun heq => h heq.symm

/-- What the scan of some files does. -/
structure Scanned (nowSec : Int) (d : Directory) (s s' : Scan) (l : List DataFile) : Prop where
  files : ∀ name, s'.files.lookup name = if ∃ f ∈ l, f.name = name ∧ ¬ f.InTime nowSec then none else s.files.lookup name
  totalFileSize : s'.totalFileSize = s.totalFileSize + bytesOfAll d (l.filter fun f => f.InTime nowSec)
  fileNames : s'.fileNames = s.fileNames ++ (l.filter fun f => f.InTime nowSec).map (DataFile.info nowSec d)

theorem scanFile_name (nowSec : Int) (s : Scan) (f : DataFile) :
    scanFile nowSec false s f.name =
      if f.InTime nowSec then
        { s with
          totalFileSize := toInt (s.totalFileSize + fileSize s.files f.name)
          fileNames := s.fileNames ++ [⟨f.name, f.isHistory, fileSize s.files f.name, nowSec - f.timestampSec⟩] }
      else { s with files := deleteFile s.files f.name } := by
  have hparse : parseName false f.name = (f.parsed, f.name) := by
    unfold parseName
    rw [if_neg Bool.false_ne_true, getFullFileName_name, parseFileName_name]
  have hts := f.timestamp_range.1
  unfold scanFile
  rw [not_isHidden_name, hparse, if_neg Bool.false_ne_true]
  dsimp only [DataFile.parsed]
  rw [if_neg (by omega)]
  by_cases hold : nowSec - f.timestampSec > kMaxAgeSecond ∨ (f.isHistory = true ∧ nowSec - f.timestampSec > kMaxLocalHistoryAgeSecond)
  · have hlate : ¬ f.InTime nowSec := by
      rintro ⟨hage, hhistory⟩
      rcases hold with hold | ⟨hh, hold⟩
      · exact absurd hage (not_le.2 hold)
      · exact absurd (hhistory hh) (not_le.2 hold)
    rw [if_pos hold, if_neg hlate]
  · have hin : f.InTime nowSec := by
      rw [not_or, not_and] at hold
      exact ⟨not_lt.1 hold.1, fun hh => not_lt.1 (hold.2 hh)⟩
    rw [if_neg hold, if_pos hin]

theorem scan_spec (nowSec : Int) (hsize : directoryBytes d < 2 ^ 31) {s : Scan} (hl : l.Nodup)
    (hmem : ∀ f ∈ l, f.name ∈ d) (hkept : ∀ f ∈ l, s.files.lookup f.name = d.lookup f.name) (hlow : 0 ≤ s.totalFileSize)
    (hhigh : s.totalFileSize + bytesOfAll d (l.filter fun f => f.InTime nowSec) < 2 ^ 31) :
    Scanned nowSec d s ((l.map DataFile.name).foldl (scanFile nowSec false) s) l := by
  induction l generalizing s with
  | nil => exact ⟨fun name => by simp, by simp [bytesOfAll], by simp⟩
  | cons f l ih =>
    obtain ⟨hnew, hl⟩ := List.nodup_cons.1 hl
    have hother : ∀ g ∈ l, f.name ≠ g.name := fun g hg heq => hnew (name_injective heq ▸ hg)
    have hrest : ∀ g ∈ l, g.name ∈ d := fun g hg => hmem g (List.mem_cons_of_mem _ hg)
    have hrestKept : ∀ g ∈ l, s.files.lookup g.name = d.lookup g.name := fun g hg => hkept g (List.mem_cons_of_mem _ hg)
    have hbytes : fileSize s.files f.name = bytesOf d f.name := by
      rw [← fileSize_eq hsize (hmem f List.mem_cons_self)]
      unfold fileSize
      rw [hkept f List.mem_cons_self]
    have hinfo : (⟨f.name, f.isHistory, fileSize s.files f.name, nowSec - f.timestampSec⟩ : FileInfo) = f.info nowSec d := by
      unfold DataFile.info
      rw [hbytes, fileSize_eq hsize (hmem f List.mem_cons_self)]
    rw [List.map_cons, List.foldl_cons, scanFile_name]
    by_cases hin : f.InTime nowSec
    · have hfilter : (f :: l).filter (fun f => f.InTime nowSec) = f :: l.filter fun f => f.InTime nowSec :=
        List.filter_cons_of_pos (decide_eq_true hin)
      rw [hfilter, bytesOfAll_cons] at hhigh
      rw [if_pos hin, hbytes, toInt_of_range (by omega) (by omega), ← hbytes, hinfo, hbytes]
      have hscan := ih (s := { s with
        totalFileSize := s.totalFileSize + bytesOf d f.name, fileNames := s.fileNames ++ [f.info nowSec d] }) hl hrest hrestKept
        (by dsimp only; omega) (by dsimp only; omega)
      refine ⟨fun name => ?_, ?_, ?_⟩
      · rw [hscan.files]
        simp [hin]
      · rw [hscan.totalFileSize, hfilter, bytesOfAll_cons]
        push_cast
        ring
      · rw [hscan.fileNames, hfilter, List.map_cons, List.append_assoc, List.singleton_append]
    · have hfilter : (f :: l).filter (fun f => f.InTime nowSec) = l.filter fun f => f.InTime nowSec :=
        List.filter_cons_of_neg (by simpa using hin)
      rw [hfilter] at hhigh
      rw [if_neg hin]
      have hscan := ih (s := { s with files := deleteFile s.files f.name }) hl hrest (fun g hg => by
        dsimp only
        rw [lookup_deleteFile, if_neg (hother g hg), hrestKept g hg]) hlow hhigh
      refine ⟨fun name => ?_, ?_, ?_⟩
      · rw [hscan.files]
        dsimp only
        rw [lookup_deleteFile]
        by_cases hname : f.name = name
        · simp [hname, hin]
        · simp [hname]
      · rw [hscan.totalFileSize, hfilter]
      · rw [hscan.fileNames, hfilter]

/-! ## The removal -/

theorem fits_iff (l : List DataFile) : overLimit l.length (bytesOfAll d l) = false ↔ Fits d l := by
  unfold overLimit Fits
  simp

/-- What the removal from the back does: it takes off the shortest beginning of the reversed list that makes the rest fit. -/
theorem removeFromBack_spec (nowSec : Int) (hsize : directoryBytes d < 2 ^ 31) (l : List DataFile) (files : Directory) (hl : l.Nodup)
    (hmem : ∀ f ∈ l, f.name ∈ d) :
    ∃ removed kept, l = removed ++ kept ∧ Fits d kept ∧
      (∀ name, (removeFromBack files (bytesOfAll d l) (l.map (DataFile.info nowSec d))).lookup name =
        if ∃ f ∈ removed, f.name = name then none else files.lookup name) ∧
      ∀ removed' kept', l = removed' ++ kept' → Fits d kept' → removed.length ≤ removed'.length := by
  induction l generalizing files with
  | nil => exact ⟨[], [], rfl, (fits_iff []).1 rfl, fun name => by simp [removeFromBack], fun _ _ _ _ => Nat.zero_le _⟩
  | cons f l ih =>
    have hbytes := (bytesOfAll_le d hl hmem).trans_lt hsize
    rw [bytesOfAll_cons] at hbytes
    have hrest : toInt ((bytesOfAll d (f :: l) : Int) - fileSize d f.name) = bytesOfAll d l := by
      rw [fileSize_eq hsize (hmem f List.mem_cons_self), bytesOfAll_cons, toInt_of_range (by omega) (by omega)]
      push_cast
      ring
    have hlength : (l.map (DataFile.info nowSec d)).length + 1 = (f :: l).length := by rw [List.length_map, List.length_cons]
    rw [List.map_cons]
    unfold removeFromBack
    rw [hlength]
    cases hover : overLimit (f :: l).length (bytesOfAll d (f :: l)) with
    | false =>
      exact ⟨[], f :: l, rfl, (fits_iff _).1 hover, fun name => by simp, fun _ _ _ _ => Nat.zero_le _⟩
    | true =>
      obtain ⟨removed, kept, hsplit, hfits, hlookup, hshortest⟩ := ih (deleteFile files f.name) (List.nodup_cons.1 hl).2
        fun g hg => hmem g (List.mem_cons_of_mem _ hg)
      refine ⟨f :: removed, kept, by rw [hsplit, List.cons_append], hfits, fun name => ?_, fun removed' kept' hsplit' hfits' => ?_⟩
      · rw [if_pos rfl]
        dsimp only [DataFile.info]
        rw [hrest, hlookup, lookup_deleteFile]
        by_cases hname : f.name = name
        · simp [hname]
        · simp [hname]
      · cases removed' with
        | nil =>
          rw [List.nil_append] at hsplit'
          rw [← hsplit', ← fits_iff, hover] at hfits'
          cases hfits'
        | cons g removed' =>
          have htail := (List.cons.inj hsplit').2
          have := hshortest removed' kept' htail hfits'
          simpa using this

/-! ## Trimming keeps the best files -/

theorem fits_reverse (h : Fits d l) : Fits d l.reverse := by
  unfold Fits bytesOfAll at h ⊢
  rwa [List.length_reverse, ((List.reverse_perm l).map fun f => bytesOf d f.name).sum_eq]

theorem removeFromBack_fits (files : Directory) {total : Int} {l : List FileInfo} (h : overLimit l.length total = false) :
    removeFromBack files total l.reverse = files := by
  cases hl : l.reverse with
  | nil => rfl
  | cons file rest =>
    have hlength : rest.length + 1 = l.length := by rw [← @List.length_reverse _ l, hl, List.length_cons]
    unfold removeFromBack
    rw [hlength, h, if_neg Bool.false_ne_true]

theorem exists_files (hnames : ∀ name ∈ d, ∃ f : DataFile, f.name = name) (l : List FileName) (hl : ∀ name ∈ l, name ∈ d) :
    ∃ files : List DataFile, files.map DataFile.name = l := by
  induction l with
  | nil => exact ⟨[], rfl⟩
  | cons name l ih =>
    obtain ⟨f, hf⟩ := hnames name (hl name List.mem_cons_self)
    obtain ⟨files, hfiles⟩ := ih fun name' hname' => hl name' (List.mem_cons_of_mem _ hname')
    exact ⟨f :: files, by rw [List.map_cons, hf, hfiles]⟩

theorem kept_sizes {d d' : Directory} {kept : List DataFile} (hkept : kept.Nodup) (hmem : ∀ f ∈ kept, f.name ∈ d)
    (hlookup : ∀ name, d'.lookup name = if ∃ f ∈ kept, f.name = name then d.lookup name else none) :
    d'.entries.length = kept.length ∧ directoryBytes d' = bytesOfAll d kept := by
  have hkeys : ∀ name, name ∈ d'.keys ↔ ∃ f ∈ kept, f.name = name := by
    intro name
    rw [← AList.mem_keys, ← AList.lookup_isSome, hlookup]
    split
    · rename_i hex
      obtain ⟨f, hf, rfl⟩ := hex
      exact iff_of_true (AList.lookup_isSome.2 (hmem f hf)) ⟨f, hf, rfl⟩
    · rename_i hex
      exact iff_of_false (by simp) hex
  have hperm : d'.keys.Perm (kept.map DataFile.name) := by
    refine (List.perm_ext_iff_of_nodup d'.keys_nodup (hkept.map name_injective)).2 fun name => ?_
    rw [hkeys, List.mem_map]
  constructor
  · have hlength := hperm.length_eq
    rw [List.length_map] at hlength
    rw [← hlength, AList.keys, List.keys, List.length_map]
  · rw [directoryBytes_eq, (hperm.map (bytesOf d')).sum_eq, List.map_map]
    unfold bytesOfAll
    congr 1
    refine List.map_congr_left fun f hf => ?_
    dsimp only [Function.comp]
    unfold bytesOf
    rw [hlookup, if_pos ⟨f, hf, rfl⟩]

end Storage

open Storage

/-- The young ones of the files, ordered, are split where the removal ends, and no split with fewer removed fits. -/
structure SplitAt (nowSec : Int) (d d' : Directory) (files kept removed : List DataFile) : Prop where
  split : kept ++ removed = ordered (files.filter fun f => f.InTime nowSec)
  fits : Fits d kept
  lookup : ∀ name, d'.lookup name =
    if ∃ f ∈ removed, f.name = name then none else if ∃ f ∈ files, f.name = name ∧ ¬ f.InTime nowSec then none else d.lookup name
  shortest : ∀ kept' removed', kept' ++ removed' = ordered (files.filter fun f => f.InTime nowSec) → Fits d kept' →
    removed.length ≤ removed'.length

theorem bytesOfAll_perm (d : Directory) {l l' : List DataFile} (h : l.Perm l') : bytesOfAll d l = bytesOfAll d l' :=
  (h.map fun f : DataFile => bytesOf d f.name).sum_eq

theorem ordered_perm (l : List DataFile) : (ordered l).Perm l := List.mergeSort_perm l _

theorem exists_splitAt {readdir : Directory → List FileName} (nowSec : Int) {d : Directory} (hsize : directoryBytes d < 2 ^ 31)
    {files : List DataFile} (hfiles : files.map DataFile.name = readdir d) (hnodup : files.Nodup)
    (hmem : ∀ f ∈ files, f.name ∈ d) : ∃ kept removed, SplitAt nowSec d (trimToFit readdir d nowSec false) files kept removed := by
  let young := files.filter fun f => f.InTime nowSec
  have hyoungNodup : young.Nodup := hnodup.filter _
  have hyoung : ∀ f ∈ young, f.name ∈ d := fun f hf => hmem f (List.mem_of_mem_filter hf)
  have hbytes := bytesOfAll_le d hyoungNodup hyoung
  have hordered : (ordered young).Perm young := ordered_perm young
  have hlength : (young.map (DataFile.info nowSec d)).length = young.length := List.length_map _
  obtain ⟨hscanned, htotal, hinfos⟩ := scan_spec nowSec hsize (s := ⟨d, 0, []⟩) hnodup hmem (fun f _ => rfl) (le_refl _)
    (by change (0 : Int) + bytesOfAll d young < 2 ^ 31; omega)
  rw [hfiles] at hscanned htotal hinfos
  rw [List.nil_append] at hinfos
  rw [zero_add] at htotal
  have hlookup : ∀ name, ((readdir d).foldl (scanFile nowSec false) ⟨d, 0, []⟩).files.lookup name =
      if ∃ f ∈ files, f.name = name ∧ ¬ f.InTime nowSec then none else d.lookup name := hscanned
  unfold trimToFit
  dsimp only
  rw [hinfos, htotal, hlength]
  cases hover : overLimit young.length (bytesOfAll d young) with
  | false =>
    have hfits : Fits d (ordered young) := by
      obtain ⟨hnumber, hbytes⟩ := (fits_iff young).1 hover
      exact ⟨hordered.length_eq ▸ hnumber, bytesOfAll_perm d hordered ▸ hbytes⟩
    refine ⟨ordered young, [], List.append_nil _, hfits, fun name => ?_, fun _ _ _ _ => Nat.zero_le _⟩
    rw [if_neg Bool.false_ne_true, removeFromBack_fits _ (hlength ▸ hover), hlookup]
    simp
  | true =>
    have hback : bytesOfAll d (ordered young).reverse = bytesOfAll d young :=
      bytesOfAll_perm d ((List.reverse_perm _).trans hordered)
    obtain ⟨removed, kept, hsplit, hfits, hremove, hshortest⟩ := removeFromBack_spec nowSec hsize (ordered young).reverse
      ((readdir d).foldl (scanFile nowSec false) ⟨d, 0, []⟩).files (List.nodup_reverse.2 (hordered.nodup_iff.2 hyoungNodup))
      fun f hf => hyoung f (hordered.mem_iff.1 (List.mem_reverse.1 hf))
    refine ⟨kept.reverse, removed.reverse, ?_, fits_reverse hfits, fun name => ?_, fun kept' removed' hsplit' hfits' => ?_⟩
    · rw [← List.reverse_append, ← hsplit, List.reverse_reverse]
    · rw [if_pos rfl, sortFiles_info, ← List.map_reverse, ← hback, hremove, hlookup]
      simp only [List.mem_reverse]
    · have := hshortest removed'.reverse kept'.reverse (by rw [← hsplit', List.reverse_append]) (fits_reverse hfits')
      simpa using this

theorem SplitAt.lookup_eq {nowSec : Int} {d d' : Directory} {files kept removed : List DataFile}
    (h : SplitAt nowSec d d' files kept removed) (hnodup : files.Nodup) (hfiles : ∀ name ∈ d, ∃ f ∈ files, f.name = name)
    (name : FileName) : d'.lookup name = if ∃ f ∈ kept, f.name = name then d.lookup name else none := by
  have hmem : ∀ f, f ∈ kept ++ removed ↔ f ∈ files ∧ f.InTime nowSec := by
    intro f
    rw [h.split, (ordered_perm _).mem_iff, List.mem_filter, decide_eq_true_eq]
  have hdisjoint := List.disjoint_of_nodup_append (h.split ▸ (ordered_perm _).nodup_iff.2 (hnodup.filter _))
  rw [h.lookup]
  by_cases hkept : ∃ f ∈ kept, f.name = name
  · rw [if_pos hkept]
    obtain ⟨f, hf, rfl⟩ := hkept
    have hnotRemoved : ¬ ∃ g ∈ removed, g.name = f.name := by
      rintro ⟨g, hg, heq⟩
      exact hdisjoint hf (name_injective heq ▸ hg)
    have hnotOld : ¬ ∃ g ∈ files, g.name = f.name ∧ ¬ g.InTime nowSec := by
      rintro ⟨g, -, heq, hold⟩
      exact hold (name_injective heq ▸ ((hmem f).1 (List.mem_append_left _ hf)).2)
    rw [if_neg hnotRemoved, if_neg hnotOld]
  · rw [if_neg hkept]
    by_cases hremoved : ∃ f ∈ removed, f.name = name
    · rw [if_pos hremoved]
    · rw [if_neg hremoved]
      by_cases hold : ∃ f ∈ files, f.name = name ∧ ¬ f.InTime nowSec
      · rw [if_pos hold]
      · rw [if_neg hold, AList.lookup_eq_none]
        -- a file that is neither old nor removed is kept
        intro hname
        obtain ⟨f, hf, rfl⟩ := hfiles name hname
        by_cases hin : f.InTime nowSec
        · rcases List.mem_append.1 ((hmem f).2 ⟨hf, hin⟩) with hf | hf
          · exact hkept ⟨f, hf, rfl⟩
          · exact hremoved ⟨f, hf, rfl⟩
        · exact hold ⟨f, hf, rfl, hin⟩

/-- In every directory of files that statsd writes, of less than 2^31 bytes, and at every time, trimming leaves files within
their age limits and both limits, and what it removes for space is the shortest end of the ordered files that makes them fit. -/
theorem trim_keeps_best {readdir : Directory → List FileName} (hreaddir : Lists readdir) (nowSec : Int) {d : Directory}
    (hnames : ∀ name ∈ d, ∃ f : DataFile, f.name = name) (hsize : directoryBytes d < 2 ^ 31) :
    Trimmed nowSec d (trimToFit readdir d nowSec false) := by
  obtain ⟨files, hfiles⟩ := exists_files hnames (readdir d) fun name hname => AList.mem_keys.2 ((hreaddir d).mem_iff.1 hname)
  have hnodup : files.Nodup := by
    have hkeys : (files.map DataFile.name).Nodup := hfiles ▸ (hreaddir d).nodup_iff.2 d.keys_nodup
    exact hkeys.of_map _
  have hmem : ∀ f : DataFile, f ∈ files ↔ f.name ∈ d := by
    intro f
    rw [← List.mem_map_of_injective name_injective, hfiles, (hreaddir d).mem_iff, AList.mem_keys]
  obtain ⟨kept, removed, hsplit⟩ := exists_splitAt nowSec hsize hfiles hnodup fun f => (hmem f).1
  have hsorted : (kept ++ removed).Perm (files.filter fun f => f.InTime nowSec) := hsplit.split ▸ ordered_perm _
  have hyoung : ∀ f, f ∈ kept ++ removed ↔ f.name ∈ d ∧ f.InTime nowSec := fun f => by
    rw [hsorted.mem_iff, List.mem_filter, hmem, decide_eq_true_eq]
  have hinKept : ∀ f, f ∈ kept → f.name ∈ d ∧ f.InTime nowSec := fun f hf => (hyoung f).1 (List.mem_append_left _ hf)
  have hkeptNodup : kept.Nodup := (hsorted.nodup_iff.2 (hnodup.filter _)).of_append_left
  have hfinal := hsplit.lookup_eq hnodup fun name hname => by
    obtain ⟨f, rfl⟩ := hnames name hname
    exact ⟨f, (hmem f).2 hname, rfl⟩
  obtain ⟨hnumber, hbytesKept⟩ := kept_sizes hkeptNodup (fun f hf => (hinKept f hf).1) hfinal
  refine ⟨fun f hf => ?_, hnumber ▸ hsplit.fits.1, hbytesKept ▸ hsplit.fits.2, kept, removed,
    hsplit.split ▸ ordered_pairwise (hnodup.filter _), hyoung, hfinal,
    fun kept' removed' heq => hsplit.shortest kept' removed' (heq.trans hsplit.split)⟩
  rw [← AList.lookup_isSome, hfinal] at hf
  by_cases hkept : ∃ g ∈ kept, g.name = f.name
  · obtain ⟨g, hg, heq⟩ := hkept
    exact name_injective heq ▸ (hinKept g hg).2
  · rw [if_neg hkept] at hf
    cases hf

/-- Two reports, one of them too old. -/
theorem trim_keeps_best_two : ∃ d : Directory, d.entries.length = 2 ∧ Trimmed 10000000 d (trimToFit AList.keys d 10000000 false) := by
  let old : DataFile := ⟨5, 1000, 7, false, by decide, by decide, by decide⟩
  let new : DataFile := ⟨9999999, 1000, 7, false, by decide, by decide, by decide⟩
  have hdiff : new.name ≠ old.name := fun h => absurd (congrArg DataFile.timestampSec (name_injective h)) (by decide)
  refine ⟨(AList.singleton new.name [1, 2]).insert old.name [3], ?_, ?_⟩
  · rw [AList.entries_insert_of_notMem fun h => hdiff (List.mem_singleton.1 (AList.mem_keys.1 h)).symm]
    rfl
  · refine trim_keeps_best (fun d => List.Perm.refl _) 10000000 (fun name hname => ?_) ?_
    · rw [AList.mem_insert] at hname
      rcases hname with rfl | hname
      · exact ⟨old, rfl⟩
      · exact ⟨new, (List.mem_singleton.1 (AList.mem_keys.1 hname)).symm⟩
    · unfold directoryBytes
      rw [AList.entries_insert_of_notMem fun h => hdiff (List.mem_singleton.1 (AList.mem_keys.1 h)).symm]
      decide

end Statsd

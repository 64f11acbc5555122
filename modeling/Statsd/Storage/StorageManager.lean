/-
Files of the storage manager (storage/StorageManager.cpp): a directory as a map from file names to bytes,
where files of a config are found by the end of their names. File operations succeed and nothing is
trimmed; `readdir` lists the names of a directory in any order.
-/
import Statsd.Base.UMap
import Statsd.Config.ConfigKey

namespace Statsd.Storage

abbrev FileName := List Char
abbrev Bytes := List UInt8
abbrev Directory := UMap FileName Bytes

/-- `suffixLen <= nameLen && strncmp(name + nameLen - suffixLen, suffix, suffixLen) == 0`. -/
def hasSuffix (name suffix : FileName) : Bool :=
  decide (suffix.length ≤ name.length) && decide (name.drop (name.length - suffix.length) = suffix)

/-- `name[0] == '.'`. -/
def isHidden (name : FileName) : Bool := name.head? == some '.'

/-- Writing a file does not cut off what an older one of the name has after it. -/
def writeFile (d : Directory) (name : FileName) (buffer : Bytes) : Directory :=
  d.insert name (buffer ++ (UMap.getD d name []).drop buffer.length)

def deleteFile (d : Directory) (name : FileName) : Directory := d.erase name

variable (readdir : Directory → List FileName)

def deleteSuffixedFiles (d : Directory) (suffix : FileName) : Directory :=
  (readdir d).foldl
    (fun d name => if isHidden name then d else if hasSuffix name suffix then deleteFile d name else d) d

/-- `readConfigFromDisk`: the bytes of the first file listed whose name ends in the key. -/
def readConfigFromDisk (d : Directory) (key : ConfigKey) : Option Bytes :=
  ((readdir d).find? fun name => !isHidden name && hasSuffix name key.text).bind d.lookup

def hasIdenticalConfig (d : Directory) (key : ConfigKey) (config : Bytes) : Bool :=
  match readConfigFromDisk readdir d key with
  | some content => decide (content = config)
  | none => false

/-- What `readdir` promises: every name of the directory once, in some order. -/
def Lists : Prop := ∀ d : Directory, (readdir d).Perm d.keys

theorem hasSuffix_iff (name suffix : FileName) : hasSuffix name suffix = true ↔ suffix <:+ name := by
  unfold hasSuffix
  rw [Bool.and_eq_true, decide_eq_true_eq, decide_eq_true_eq]
  constructor
  · rintro ⟨-, h⟩
    rw [← h]
    exact List.drop_suffix _ _
  · intro h
    exact ⟨h.length_le, (List.suffix_iff_eq_drop.1 h).symm⟩

theorem hidden_append (time : Int) (rest : FileName) : isHidden (decimal time ++ rest) = false := by
  have hpos := decimal_ne_nil time
  have hdot : '.' ∉ decimal time := by
    unfold decimal
    have hdigit : ∀ n : Nat, '.' ∉ Nat.toDigits 10 n := by
      intro n h
      exact absurd (Nat.isDigit_of_mem_toDigits (by decide) (by decide) h) (by decide)
    split
    · simpa using hdigit _
    · exact hdigit _
  unfold isHidden
  cases hd : decimal time with
  | nil => exact absurd hd hpos
  | cons c cs =>
    rw [hd] at hdot
    have hne : c ≠ '.' := fun h => hdot (h ▸ List.mem_cons_self)
    simpa using hne

variable {readdir : Directory → List FileName}

theorem lookup_deleteSuffixedFiles (h : Lists readdir) (d : Directory)
    (suffix name : FileName) :
    (deleteSuffixedFiles readdir d suffix).lookup name =
      if isHidden name = false ∧ suffix <:+ name then none else d.lookup name := by
  have hloop : ∀ (l : List FileName) (d : Directory),
      (l.foldl (fun d name => if isHidden name then d else if hasSuffix name suffix then deleteFile d name else d) d).lookup name =
        if name ∈ l ∧ isHidden name = false ∧ suffix <:+ name then none else d.lookup name := by
    intro l
    induction l with
    | nil => simp
    | cons name' l ih =>
      intro d
      have hstep : (if isHidden name' then d else if hasSuffix name' suffix then deleteFile d name' else d).lookup name =
          if name = name' ∧ isHidden name = false ∧ suffix <:+ name then none else d.lookup name := by
        by_cases hname : name = name'
        · subst hname
          cases hh : isHidden name with
          | true => simp
          | false =>
            by_cases hs : suffix <:+ name
            · rw [(hasSuffix_iff name suffix).2 hs]; simp [hs, deleteFile]
            · have hs' : hasSuffix name suffix = false := by
                rw [← Bool.not_eq_true, hasSuffix_iff]; exact hs
              simp [hs, hs']
        · have hkeep : (deleteFile d name').lookup name = d.lookup name := AList.lookup_erase_ne hname
          simp only [hname, false_and, if_false]
          cases isHidden name' <;> cases hasSuffix name' suffix <;> simp [hkeep]
      rw [List.foldl_cons, ih, hstep]
      simp only [List.mem_cons]
      by_cases hends : isHidden name = false ∧ suffix <:+ name
      · simp only [eq_true hends, and_true]
        by_cases h1 : name ∈ l <;> by_cases h2 : name = name' <;> simp [h1, h2]
      · simp only [eq_false hends, and_false, if_false]
  unfold deleteSuffixedFiles
  rw [hloop]
  by_cases hmem : name ∈ d
  · have hin : name ∈ readdir d := (h d).mem_iff.2 (AList.mem_keys.1 hmem)
    simp [hin]
  · rw [AList.lookup_eq_none.2 hmem, ite_self, ite_self]

theorem readConfigFromDisk_of_unique (h : Lists readdir) {d : Directory}
    {key : ConfigKey} {name : FileName} (hmem : name ∈ d) (hvisible : isHidden name = false) (hsuffix : key.text <:+ name)
    (honly : ∀ name' ∈ d, key.text <:+ name' → name' = name) : readConfigFromDisk readdir d key = d.lookup name := by
  unfold readConfigFromDisk
  cases hf : (readdir d).find? fun name => !isHidden name && hasSuffix name key.text with
  | none =>
    have hno := List.find?_eq_none.1 hf name ((h d).mem_iff.2 (AList.mem_keys.1 hmem))
    rw [hvisible, (hasSuffix_iff name key.text).2 hsuffix] at hno
    exact absurd rfl hno
  | some name' =>
    have hin : name' ∈ d := AList.mem_keys.2 ((h d).mem_iff.1 (List.mem_of_find?_eq_some hf))
    have hends := List.find?_some hf
    rw [Bool.and_eq_true, hasSuffix_iff] at hends
    rw [honly name' hin hends.2]; rfl

theorem readConfigFromDisk_of_none (h : Lists readdir) {d : Directory}
    {key : ConfigKey} (hnone : ∀ name ∈ d, ¬ key.text <:+ name) : readConfigFromDisk readdir d key = none := by
  unfold readConfigFromDisk
  have hno : ((readdir d).find? fun name => !isHidden name && hasSuffix name key.text) = none := by
    rw [List.find?_eq_none]
    intro name hname hends
    rw [Bool.and_eq_true, hasSuffix_iff] at hends
    exact hnone name (AList.mem_keys.2 ((h d).mem_iff.1 hname)) hends.2
  rw [hno]; rfl

end Statsd.Storage

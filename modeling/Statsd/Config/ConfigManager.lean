/-
The configs on disk (config/ConfigManager.cpp): the manager keeps the keys of each uid in memory and
one file for each config, found by the end of its name. A file's name may end in the key of another config
too, with the same id and a uid whose text is shorter: the files of such configs are mixed up.

The listeners are left out; the bytes of a config are what it is serialized to.
-/
import Statsd.Base.Run
import Statsd.Storage.StorageManager

namespace Statsd

open Storage

/-- The limit of `StatsdStats` on the configs of a uid. -/
def kMaxConfigCountPerUid : Nat := 20

structure ConfigManager where
  mConfigs : UMap Int (List ConfigKey)
  /-- The files of `STATS_SERVICE_DIR`. -/
  dir : Directory

namespace ConfigManager

def new : ConfigManager := ⟨∅, ∅⟩

variable (readdir : Directory → List FileName)

def remove_saved_configs (m : ConfigManager) (key : ConfigKey) : ConfigManager :=
  { m with dir := deleteSuffixedFiles readdir m.dir key.text }

/-- `StringPrintf("%ld_%d_%lld", time, uid, id)`. -/
def fileName (time : Int) (key : ConfigKey) : FileName := decimal time ++ '_' :: key.text

def update_saved_configs_locked (m : ConfigManager) (time : Int) (key : ConfigKey) (buffer : Bytes) : ConfigManager :=
  let m := m.remove_saved_configs readdir key
  { m with dir := writeFile m.dir (fileName time key) buffer }

/-- The guardrail on the configs of a uid. -/
def exceeded (m : ConfigManager) (key : ConfigKey) : Bool :=
  match m.mConfigs.lookup key.mUid with
  | some keys => decide (key ∉ keys) && decide (keys.length ≥ kMaxConfigCountPerUid)
  | none => false

def UpdateConfig (m : ConfigManager) (time : Int) (key : ConfigKey) (buffer : Bytes) : ConfigManager :=
  if m.exceeded key then m
  else if key ∈ UMap.getD m.mConfigs key.mUid [] ∧ hasIdenticalConfig readdir m.dir key buffer then
    -- a duplicate is written again for the time of its file
    m.update_saved_configs_locked readdir time key buffer
  else
    let m := m.update_saved_configs_locked readdir time key buffer
    { m with mConfigs := m.mConfigs.insert key.mUid ((UMap.getD m.mConfigs key.mUid []).insert key) }

def RemoveConfig (m : ConfigManager) (key : ConfigKey) : ConfigManager :=
  let m := match m.mConfigs.lookup key.mUid with
    | some keys => if key ∈ keys then { m with mConfigs := m.mConfigs.insert key.mUid (keys.erase key) } else m
    | none => m
  m.remove_saved_configs readdir key

def RemoveConfigs (m : ConfigManager) (uid : Int) : ConfigManager :=
  match m.mConfigs.lookup uid with
  | none => m
  | some keys =>
    let m := keys.foldl (fun m key => m.remove_saved_configs readdir key) m
    { m with mConfigs := m.mConfigs.erase uid }

end ConfigManager

/-! ## Runs -/

inductive ConfigCall where
  | UpdateConfig (time : Int) (key : ConfigKey) (buffer : Bytes)
  | RemoveConfig (key : ConfigKey)
  | RemoveConfigs (uid : Int)

/-- The manager, and the configs that are stored: the bytes of the last update of each key that passed the guardrail,
unless it was removed since. -/
structure ConfigStore where
  manager : ConfigManager
  stored : ConfigKey → Option Bytes

namespace ConfigStore

def new : ConfigStore := ⟨.new, fun _ => none⟩

variable (readdir : Directory → List FileName)

def run (s : ConfigStore) : ConfigCall → ConfigStore
  | .UpdateConfig time key buffer =>
    ⟨s.manager.UpdateConfig readdir time key buffer,
      if s.manager.exceeded key then s.stored else Function.update s.stored key (some buffer)⟩
  | .RemoveConfig key => ⟨s.manager.RemoveConfig readdir key, Function.update s.stored key none⟩
  | .RemoveConfigs uid => ⟨s.manager.RemoveConfigs readdir uid, fun key => if key.mUid = uid then none else s.stored key⟩

/-- A call keeps clear of a config: it stores no other one whose file name ends in the config's key, and while the
config is stored it updates and removes none whose key is the end of the config's. -/
def ClearOf (key : ConfigKey) (s : ConfigStore) : ConfigCall → Prop
  | .UpdateConfig _ key' _ => s.manager.exceeded key' = false → key' ≠ key →
    ¬ key.EndsIn key' ∧ (s.stored key ≠ none → ¬ key'.EndsIn key)
  | .RemoveConfig key' => key' ≠ key → s.stored key ≠ none → ¬ key'.EndsIn key
  | .RemoveConfigs uid => ∀ key' ∈ UMap.getD s.manager.mConfigs uid [], key' ≠ key → s.stored key ≠ none → ¬ key'.EndsIn key

/-! ## The file of a config -/

/-- The files that are there for a config: none when it is not stored, and one with its bytes when it is. -/
def HasFile (d : Directory) (key : ConfigKey) : Option Bytes → Prop
  | none => ∀ name ∈ d, ¬ key.text <:+ name
  | some bytes => ∃ time, d.lookup (ConfigManager.fileName time key) = some bytes ∧
    ∀ name ∈ d, key.text <:+ name → name = ConfigManager.fileName time key

variable {readdir}

variable {d : Directory} {key : ConfigKey} {stored : Option Bytes}

theorem HasFile.read (h : Lists readdir) :
    ∀ {stored : Option Bytes}, HasFile d key stored → readConfigFromDisk readdir d key = stored
  | none, hf => readConfigFromDisk_of_none h hf
  | some _, ⟨time, hlook, honly⟩ => by
    have hmem : ConfigManager.fileName time key ∈ d := AList.lookup_isSome.1 (by rw [hlook]; rfl)
    rw [← hlook]
    exact readConfigFromDisk_of_unique h hmem (hidden_append ..)
      ((key.text_suffix_iff key _).2 (.refl key)) honly

theorem mem_delete (h : Lists readdir) {suffix name : FileName}
    (hmem : name ∈ deleteSuffixedFiles readdir d suffix) : name ∈ d ∧ ¬ (isHidden name = false ∧ suffix <:+ name) := by
  have hsome := AList.lookup_isSome.2 hmem
  rw [lookup_deleteSuffixedFiles h] at hsome
  split at hsome
  · cases hsome
  · rename_i hno
    exact ⟨AList.lookup_isSome.1 hsome, hno⟩

/-- Deleting the files of another config leaves those of the config, when its name does not end in the other's key
or it has none. -/
theorem HasFile.delete_other (h : Lists readdir) {key key' : ConfigKey} :
    ∀ {stored : Option Bytes}, HasFile d key stored → (stored ≠ none → ¬ key'.EndsIn key) →
      HasFile (deleteSuffixedFiles readdir d key'.text) key stored
  | none, hf, _ => fun name hname => hf name (mem_delete h hname).1
  | some bytes, ⟨time, hlook, honly⟩, hclear => by
    refine ⟨time, ?_, fun name hname => honly name (mem_delete h hname).1⟩
    rw [lookup_deleteSuffixedFiles h, if_neg, hlook]
    rintro ⟨-, hends⟩
    exact hclear (by simp) ((key'.text_suffix_iff key _).1 hends)

/-- All names end in some key, after a time. -/
def Named (d : Directory) : Prop := ∀ name ∈ d, ∃ time key, name = ConfigManager.fileName time key

theorem Named.delete (h : Lists readdir) (hn : Named d) (suffix : FileName) :
    Named (deleteSuffixedFiles readdir d suffix) :=
  fun name hname => hn name (mem_delete h hname).1

theorem Named.delete_own (h : Lists readdir) (hn : Named d) (key : ConfigKey) :
    HasFile (deleteSuffixedFiles readdir d key.text) key none := by
  intro name hname hends
  obtain ⟨hmem, hno⟩ := mem_delete h hname
  obtain ⟨time, key', rfl⟩ := hn name hmem
  exact hno ⟨hidden_append .., hends⟩

theorem Named.write (hn : Named d) (time : Int) (key : ConfigKey) (buffer : Bytes) :
    Named (writeFile d (ConfigManager.fileName time key) buffer) := by
  intro name hname
  rcases AList.mem_insert _ |>.1 hname with rfl | hname
  · exact ⟨time, key, rfl⟩
  · exact hn name hname

theorem HasFile.write_own (hf : HasFile d key none) (time : Int) (buffer : Bytes) :
    HasFile (writeFile d (ConfigManager.fileName time key) buffer) key (some buffer) := by
  have hends : key.text <:+ ConfigManager.fileName time key := (key.text_suffix_iff key _).2 (.refl key)
  have hnone : d.lookup (ConfigManager.fileName time key) = none :=
    AList.lookup_eq_none.2 fun hmem => hf _ hmem hends
  refine ⟨time, ?_, fun name hname hends' => ?_⟩
  · unfold writeFile
    rw [AList.lookup_insert, UMap.getD_of_lookup_none hnone, List.drop_nil, List.append_nil]
  · rcases AList.mem_insert _ |>.1 hname with h | hmem
    · exact h
    · exact absurd hends' (hf name hmem)

theorem HasFile.write_other {key key' : ConfigKey} (hclear : ¬ key.EndsIn key') (time' : Int) (buffer : Bytes) :
    ∀ {stored : Option Bytes}, HasFile d key stored →
      HasFile (writeFile d (ConfigManager.fileName time' key') buffer) key stored := by
  have hno : ¬ key.text <:+ ConfigManager.fileName time' key' := fun h => hclear ((key.text_suffix_iff key' _).1 h)
  intro stored hf
  cases stored with
  | none =>
    intro name hname hends
    rcases AList.mem_insert _ |>.1 hname with rfl | hmem
    · exact hno hends
    · exact hf name hmem hends
  | some bytes =>
    obtain ⟨time, hlook, honly⟩ := hf
    refine ⟨time, ?_, fun name hname hends => ?_⟩
    · have hne : ConfigManager.fileName time key ≠ ConfigManager.fileName time' key' := by
        intro heq
        exact hno (heq ▸ (key.text_suffix_iff key _).2 (.refl key))
      unfold writeFile
      rw [AList.lookup_insert_ne hne, hlook]
    · rcases AList.mem_insert _ |>.1 hname with rfl | hmem
      · exact absurd hends hno
      · exact honly name hmem hends

/-! ## Steps -/

/-- What a manager keeps for a config: names end in keys, the keys in memory are under their uids, a stored config is
in memory, and its file is there. -/
structure Kept (key : ConfigKey) (m : ConfigManager) (stored : Option Bytes) : Prop where
  named : Named m.dir
  under : ∀ uid, ∀ key' ∈ UMap.getD m.mConfigs uid [], key'.mUid = uid
  memory : stored ≠ none → key ∈ UMap.getD m.mConfigs key.mUid []
  file : HasFile m.dir key stored

theorem kept_new (key : ConfigKey) : Kept key .new none :=
  ⟨fun _ h => absurd h (AList.notMem_empty _), fun _ _ h => absurd h List.not_mem_nil, fun h => absurd rfl h,
    fun _ h => absurd h (AList.notMem_empty _)⟩

theorem mem_insert_getD (m : UMap Int (List ConfigKey)) (uid uid' : Int) (keys : List ConfigKey) (key : ConfigKey) :
    key ∈ UMap.getD (m.insert uid keys) uid' [] ↔ if uid' = uid then key ∈ keys else key ∈ UMap.getD m uid' [] := by
  rw [UMap.getD_insert]; split <;> rfl

theorem Kept.update (h : Lists readdir) {m : ConfigManager} (hk : Kept key m stored)
    (time : Int) {key' : ConfigKey} (buffer : Bytes) (hex : m.exceeded key' = false)
    (hclear : key' ≠ key → ¬ key.EndsIn key' ∧ (stored ≠ none → ¬ key'.EndsIn key)) :
    Kept key (m.UpdateConfig readdir time key' buffer) (if key' = key then some buffer else stored) := by
  have hnamed : Named (m.update_saved_configs_locked readdir time key' buffer).dir :=
    (hk.named.delete h _).write time key' buffer
  have hfile : HasFile (m.update_saved_configs_locked readdir time key' buffer).dir key
      (if key' = key then some buffer else stored) := by
    split
    · rename_i hkey
      subst hkey
      exact (hk.named.delete_own h key').write_own time buffer
    · rename_i hkey
      exact (hk.file.delete_other h (hclear hkey).2).write_other (hclear hkey).1 time buffer
  unfold ConfigManager.UpdateConfig
  rw [hex, if_neg Bool.false_ne_true]
  split
  · -- a duplicate is in memory already
    rename_i hdup
    refine ⟨hnamed, hk.under, fun hs => ?_, hfile⟩
    by_cases hkey : key' = key
    · subst hkey; exact hdup.1
    · rw [if_neg hkey] at hs
      exact hk.memory hs
  · refine ⟨hnamed, fun uid key'' hmem => ?_, fun hs => ?_, hfile⟩
    · rw [mem_insert_getD] at hmem
      split at hmem
      · rename_i huid
        rcases List.mem_insert_iff.1 hmem with rfl | hmem
        · exact huid.symm
        · rw [huid]; exact hk.under _ _ hmem
      · exact hk.under uid key'' hmem
    · rw [mem_insert_getD]
      by_cases hkey : key' = key
      · subst hkey; simp
      · rw [if_neg hkey] at hs
        have hmem := hk.memory hs
        split
        · rename_i huid
          rw [huid] at hmem
          exact List.mem_insert_of_mem hmem
        · exact hmem

theorem Kept.remove (h : Lists readdir) {m : ConfigManager} (hk : Kept key m stored)
    {key' : ConfigKey} (hclear : key' ≠ key → stored ≠ none → ¬ key'.EndsIn key) :
    Kept key (m.RemoveConfig readdir key') (if key' = key then none else stored) := by
  -- the manager whose memory does not have the removed key any more
  obtain ⟨m', hdir, hunder, hmem, hrun⟩ : ∃ m' : ConfigManager, m'.dir = m.dir ∧
      (∀ uid, ∀ key'' ∈ UMap.getD m'.mConfigs uid [], key''.mUid = uid) ∧
      (key ≠ key' → key ∈ UMap.getD m.mConfigs key.mUid [] → key ∈ UMap.getD m'.mConfigs key.mUid []) ∧
      m.RemoveConfig readdir key' = m'.remove_saved_configs readdir key' := by
    unfold ConfigManager.RemoveConfig
    cases hl : m.mConfigs.lookup key'.mUid with
    | none => exact ⟨m, rfl, hk.under, fun _ hmem => hmem, rfl⟩
    | some keys =>
      dsimp only
      split
      · refine ⟨{ m with mConfigs := m.mConfigs.insert key'.mUid (keys.erase key') }, rfl, fun uid key'' hmem => ?_,
          fun hne hmem => ?_, rfl⟩
        · rw [mem_insert_getD] at hmem
          split at hmem
          · rename_i huid
            refine hk.under uid key'' ?_
            rw [huid, UMap.getD_of_lookup_some hl]
            exact List.mem_of_mem_erase hmem
          · exact hk.under uid key'' hmem
        · rw [mem_insert_getD]
          split
          · rename_i huid
            rw [huid, UMap.getD_of_lookup_some hl] at hmem
            exact (List.mem_erase_of_ne hne).2 hmem
          · exact hmem
      · exact ⟨m, rfl, hk.under, fun _ hmem => hmem, rfl⟩
  rw [hrun]
  unfold ConfigManager.remove_saved_configs
  rw [hdir]
  refine ⟨hk.named.delete h _, hunder, fun hs => ?_, ?_⟩
  · by_cases hkey : key' = key
    · rw [if_pos hkey] at hs; exact absurd rfl hs
    · have hne : key ≠ key' := fun h => hkey h.symm
      rw [if_neg hkey] at hs
      exact hmem hne (hk.memory hs)
  · split
    · rename_i hkey
      subst hkey
      exact hk.named.delete_own h key'
    · rename_i hkey
      exact hk.file.delete_other h (hclear hkey)

theorem removeAll_spec (h : Lists readdir) (keys : List ConfigKey)
    (hclear : ∀ key' ∈ keys, key' ≠ key → stored ≠ none → ¬ key'.EndsIn key) (m : ConfigManager) (hn : Named m.dir)
    (hf : HasFile m.dir key stored) :
    let m' := keys.foldl (fun m key => m.remove_saved_configs readdir key) m
    Named m'.dir ∧ HasFile m'.dir key (if key ∈ keys then none else stored) ∧ m'.mConfigs = m.mConfigs := by
  induction keys generalizing m stored with
  | nil => exact ⟨hn, hf, rfl⟩
  | cons key' keys ih =>
    rw [List.foldl_cons]
    have hn' : Named (m.remove_saved_configs readdir key').dir := hn.delete h _
    by_cases hkey : key' = key
    · subst hkey
      have hnone : HasFile (m.remove_saved_configs readdir key').dir key' none := hn.delete_own h key'
      obtain ⟨h1, h2, h3⟩ := ih (fun _ _ _ hs => absurd rfl hs) _ hn' hnone
      rw [ite_self] at h2
      rw [if_pos List.mem_cons_self]
      exact ⟨h1, h2, h3⟩
    · have hother : HasFile (m.remove_saved_configs readdir key').dir key stored :=
        hf.delete_other h (hclear key' List.mem_cons_self hkey)
      obtain ⟨h1, h2, h3⟩ := ih (fun k hk => hclear k (List.mem_cons_of_mem key' hk)) _ hn' hother
      have hne : key ≠ key' := fun h => hkey h.symm
      simp only [List.mem_cons, hne, false_or]
      exact ⟨h1, h2, h3⟩

theorem Kept.removeAll (h : Lists readdir) {m : ConfigManager} (hk : Kept key m stored)
    {uid : Int} (hclear : ∀ key' ∈ UMap.getD m.mConfigs uid [], key' ≠ key → stored ≠ none → ¬ key'.EndsIn key) :
    Kept key (m.RemoveConfigs readdir uid) (if key.mUid = uid then none else stored) := by
  -- a stored config of the uid is among the keys in memory
  have hstored : key.mUid = uid → key ∉ UMap.getD m.mConfigs uid [] → stored = none := by
    rintro rfl hno
    by_contra hs
    exact hno (hk.memory hs)
  unfold ConfigManager.RemoveConfigs
  cases hl : m.mConfigs.lookup uid with
  | none =>
    rw [UMap.getD_of_lookup_none hl] at hstored
    have hsame : (if key.mUid = uid then none else stored) = stored := by
      split
      · rename_i huid; exact (hstored huid List.not_mem_nil).symm
      · rfl
    rw [hsame]
    exact hk
  | some keys =>
    have hunder := hk.under uid
    rw [UMap.getD_of_lookup_some hl] at hstored hunder hclear
    obtain ⟨h1, h2, h3⟩ := removeAll_spec h keys hclear m hk.named hk.file
    have hsame : (if key ∈ keys then none else stored) = if key.mUid = uid then none else stored := by
      by_cases hmem : key ∈ keys
      · rw [if_pos hmem, if_pos (hunder key hmem)]
      · rw [if_neg hmem]
        split
        · rename_i huid; exact hstored huid hmem
        · rfl
    refine ⟨h1, fun uid' key' hmem => ?_, fun hs => ?_, hsame ▸ h2⟩
    · dsimp only at hmem
      rw [h3, UMap.getD_erase] at hmem
      split at hmem
      · exact absurd hmem List.not_mem_nil
      · exact hk.under uid' key' hmem
    · dsimp only
      rw [h3, UMap.getD_erase]
      split
      · rename_i huid
        rw [if_pos huid] at hs; exact absurd rfl hs
      · rename_i huid
        rw [if_neg huid] at hs; exact hk.memory hs

theorem Kept.run (h : Lists readdir) {s : ConfigStore} (hk : Kept key s.manager (s.stored key))
    {call : ConfigCall} (hok : ClearOf key s call) :
    Kept key (s.run readdir call).manager ((s.run readdir call).stored key) := by
  have hupdate : ∀ (key' : ConfigKey) (b : Option Bytes),
      Function.update s.stored key' b key = if key' = key then b else s.stored key := by
    intro key' b
    by_cases hkey : key' = key
    · rw [if_pos hkey, hkey, Function.update_self]
    · have hne : key ≠ key' := fun h => hkey h.symm
      rw [if_neg hkey, Function.update_of_ne hne]
  cases call with
  | UpdateConfig time key' buffer =>
    unfold ConfigStore.run
    dsimp only
    cases hex : s.manager.exceeded key' with
    | true =>
      have hsame : s.manager.UpdateConfig readdir time key' buffer = s.manager := by
        unfold ConfigManager.UpdateConfig; rw [hex, if_pos rfl]
      rw [hsame]
      exact hk
    | false =>
      rw [if_neg Bool.false_ne_true, hupdate]
      exact hk.update h time buffer hex (hok hex)
  | RemoveConfig key' =>
    unfold ConfigStore.run
    dsimp only
    rw [hupdate]
    exact hk.remove h hok
  | RemoveConfigs uid => exact hk.removeAll h hok

/-- The file of a config holds what was last stored for it, and there is none when nothing is, in every state of
every run whose calls keep clear of the config. -/
theorem config_read_back (readdir : Directory → List FileName) (h : Lists readdir) (key : ConfigKey) (calls : List ConfigCall)
    (hclear : RunOk (ConfigStore.run readdir) (ClearOf key) new calls) (n : Nat) :
    readConfigFromDisk readdir ((calls.take n).foldl (ConfigStore.run readdir) new).manager.dir key =
      ((calls.take n).foldl (ConfigStore.run readdir) new).stored key :=
  (hclear.inv_take (I := fun s => Kept key s.manager (s.stored key)) (fun _ _ hok hk => hk.run h hok) (kept_new key) n).file.read h

theorem lists_keys : Lists fun d : Directory => d.keys := fun _ => .refl _

/-- Two configs of one uid and one of another: the config of the one survives the update and the removal of the
others. -/
theorem config_read_back_others :
    let calls : List ConfigCall := [.UpdateConfig 7 ⟨1000, 5⟩ [1, 2], .UpdateConfig 8 ⟨1000, 6⟩ [3], .UpdateConfig 8 ⟨2000, 5⟩ [4],
      .RemoveConfig ⟨1000, 6⟩, .RemoveConfigs 2000]
    readConfigFromDisk (fun d => d.keys) (calls.foldl (ConfigStore.run fun d => d.keys) new).manager.dir ⟨1000, 5⟩ =
      some [1, 2] := by
  intro calls
  have hclear : RunOk (ConfigStore.run fun d => d.keys) (ClearOf ⟨1000, 5⟩) new calls := by
    refine ⟨fun _ hne => absurd rfl hne, fun _ _ => by decide +kernel, fun _ _ => by decide +kernel, fun _ _ => by decide +kernel,
      ?_, trivial⟩
    have hkeys : UMap.getD ((calls.take 4).foldl (ConfigStore.run fun d => d.keys) new).manager.mConfigs 2000 [] =
        [⟨2000, 5⟩] := by decide +kernel
    intro key' hkey'
    have hmem : key' ∈ [(⟨2000, 5⟩ : ConfigKey)] := hkeys ▸ hkey'
    rw [List.mem_singleton.1 hmem]
    exact fun _ _ => by decide +kernel
  have h := config_read_back (fun d => d.keys) lists_keys ⟨1000, 5⟩ calls hclear 5
  rw [show calls.take 5 = calls from rfl] at h
  rw [h]
  decide +kernel

/-- The same id under uid 101000 and under uid 1000: removing the second deletes the file of the first, whose
name ends in the second one's key. -/
theorem remove_deletes_other :
    let s := [ConfigCall.UpdateConfig 7 ⟨101000, 5⟩ [1, 2], .RemoveConfig ⟨1000, 5⟩].foldl (ConfigStore.run fun d => d.keys) new
    s.stored ⟨101000, 5⟩ = some [1, 2] ∧ readConfigFromDisk (fun d => d.keys) s.manager.dir ⟨101000, 5⟩ = none := by
  decide +kernel

end ConfigStore

end Statsd

/-
Shell subscriptions (shell/ShellSubscriber.{h,cpp}). Each call of `startNewSubscription` runs on a thread
of its own: it claims a token, reads its config, installs its subscription and waits until the subscription
ends. A step is what a thread does between two points at which another thread can run, with the mutex and
its holder explicit; a step that the state does not allow changes nothing.

Left out are what goes through the pipe and when: which atoms match, what the pullers return, and the
clock. A helper and a log event come with the outcomes of the writes they make.
-/
import Statsd.Base.Run

namespace Statsd.Shell

/-- Where a call of `startNewSubscription` is. -/
inductive Phase where
  | idle
  /-- It has its token and reads its config, which may take any time. -/
  | reading (myToken : Int)
  /-- Its config is read. -/
  | configured (myToken : Int)
  /-- It holds the mutex, and is about to evaluate the predicate of its wait. -/
  | checking (myToken : Int)
  /-- It waits, with the mutex released. -/
  | waiting (myToken : Int)
  /-- Its wait ended; it holds the mutex. -/
  | ended (myToken : Int)
  | done
  deriving DecidableEq, Repr

def Phase.myToken : Phase → Option Int
  | idle | done => none
  | reading t | configured t | checking t | waiting t | ended t => some t

/-- The call has installed its subscription, and its wait has not ended. -/
def Phase.InWait : Phase → Prop
  | checking _ | waiting _ => True
  | _ => False

/-- The call holds the mutex between two steps. -/
def Phase.Holds : Phase → Prop
  | checking _ | ended _ => True
  | _ => False

/-- The assignment of `mSubscriptionInfo` by a call, with its token and the last token claimed by then. -/
structure Install where
  call : Nat
  myToken : Int
  mToken : Int
  deriving DecidableEq, Repr

/-- The object, the calls (by number; a subscription is identified by its call) and the helper threads,
with the installs so far, the latest first. -/
structure ShellSubscriber where
  mToken : Int := 0
  /-- The call that holds the mutex between two steps. -/
  mMutex : Option Nat := none
  mSubscriptionInfo : Option Nat := none
  mClientAlive : Nat → Bool := fun _ => true
  calls : Nat → Phase := fun _ => .idle
  /-- The helper of a call runs, with the token it was given. -/
  helpers : Nat → Option Int := fun _ => none
  installs : List Install := []

inductive Step where
  | claimToken (call : Nat)
  | readConfig (call : Nat) (ok : Bool)
  /-- The mutex is taken, the subscription installed and the helper spawned. -/
  | install (call : Nat)
  /-- The predicate of the wait is evaluated under the mutex. -/
  | checkEnd (call : Nat)
  /-- The call is woken, by a notification or spuriously, and takes the mutex. -/
  | wake (call : Nat)
  /-- The time-out of the wait is over; the call takes the mutex. -/
  | timeout (call : Nat)
  /-- After the wait: the subscription is cleared if it is still the call's own, and the mutex released. -/
  | clear (call : Nat)
  /-- A round of the helper of a call, with the outcomes of its writes. -/
  | helper (call : Nat) (writes : List Bool)
  /-- A log event, with the outcomes of the writes for the matchers that match. -/
  | onLogEvent (writes : List Bool)
  deriving DecidableEq, Repr

namespace ShellSubscriber

def setCall (s : ShellSubscriber) (call : Nat) (phase : Phase) : ShellSubscriber :=
  { s with calls := Function.update s.calls call phase }

/-- `claimToken`: tokens are ints, here without the bound that C++ leaves undefined to pass. -/
def claimToken (s : ShellSubscriber) (call : Nat) : ShellSubscriber :=
  match s.calls call, s.mMutex with
  | .idle, none =>
    let myToken := s.mToken + 1
    { s with mToken := myToken }.setCall call (.reading myToken)
  | _, _ => s

/-- `readConfig` returns; on false the call is over. -/
def readConfig (s : ShellSubscriber) (call : Nat) (ok : Bool) : ShellSubscriber :=
  match s.calls call with
  | .reading myToken => s.setCall call (if ok then .configured myToken else .done)
  | _ => s

def install (s : ShellSubscriber) (call : Nat) : ShellSubscriber :=
  match s.calls call, s.mMutex with
  | .configured myToken, none =>
    { s with
      mMutex := some call
      mSubscriptionInfo := some call
      helpers := Function.update s.helpers call (some myToken)
      installs := ⟨call, myToken, s.mToken⟩ :: s.installs }.setCall call (.checking myToken)
  | _, _ => s

/-- The predicate of `waitForSubscriptionToEndLocked`: when it holds the wait returns with the mutex held,
else the call sleeps with the mutex released. -/
def checkEnd (s : ShellSubscriber) (call : Nat) : ShellSubscriber :=
  match s.calls call with
  | .checking myToken =>
    if s.mToken ≠ myToken ∨ ¬ s.mClientAlive call then s.setCall call (.ended myToken)
    else { s with mMutex := none }.setCall call (.waiting myToken)
  | _ => s

def wake (s : ShellSubscriber) (call : Nat) : ShellSubscriber :=
  match s.calls call, s.mMutex with
  | .waiting myToken, none => { s with mMutex := some call }.setCall call (.checking myToken)
  | _, _ => s

/-- `wait_for` returns when its time is over, whatever the predicate says. -/
def timeout (timeoutSec : Nat → Int) (s : ShellSubscriber) (call : Nat) : ShellSubscriber :=
  match s.calls call, s.mMutex with
  | .waiting myToken, none =>
    if timeoutSec call > 0 then { s with mMutex := some call }.setCall call (.ended myToken) else s
  | _, _ => s

def clear (s : ShellSubscriber) (call : Nat) : ShellSubscriber :=
  match s.calls call with
  | .ended _ =>
    { s with
      mSubscriptionInfo := if s.mSubscriptionInfo = some call then none else s.mSubscriptionInfo
      mMutex := none }.setCall call .done
  | _ => s

/-- `attemptWriteToPipeLocked`: after a failed write the client of the current subscription is gone. -/
def attemptWriteToPipeLocked (s : ShellSubscriber) (ok : Bool) : ShellSubscriber :=
  match s.mSubscriptionInfo with
  | some info => if ok then s else { s with mClientAlive := Function.update s.mClientAlive info false }
  | none => s

/-- A round of `pullAndSendHeartbeats`. -/
def pullAndSendHeartbeats (s : ShellSubscriber) (call : Nat) (writes : List Bool) : ShellSubscriber :=
  match s.helpers call, s.mMutex with
  | some myToken, none =>
    if s.mSubscriptionInfo = none ∨ s.mToken ≠ myToken then { s with helpers := Function.update s.helpers call none }
    else writes.foldl attemptWriteToPipeLocked s
  | _, _ => s

def onLogEvent (s : ShellSubscriber) (writes : List Bool) : ShellSubscriber :=
  match s.mMutex with
  | none => writes.foldl attemptWriteToPipeLocked s
  | some _ => s

/-- One step, where `timeoutSec` is the argument of each call. -/
def step (timeoutSec : Nat → Int) (s : ShellSubscriber) : Step → ShellSubscriber
  | .claimToken call => s.claimToken call
  | .readConfig call ok => s.readConfig call ok
  | .install call => s.install call
  | .checkEnd call => s.checkEnd call
  | .wake call => s.wake call
  | .timeout call => s.timeout timeoutSec call
  | .clear call => s.clear call
  | .helper call writes => s.pullAndSendHeartbeats call writes
  | .onLogEvent writes => s.onLogEvent writes

/-! ## What holds on every run -/

/-- The subscriber that had the largest token claimed so far when it installed is still installed, unless
its client died, its wait ended or a larger token was installed after it. -/
def NotDisplaced (s : ShellSubscriber) : Prop :=
  ∀ (later : List Install) (e : Install) (earlier : List Install), s.installs = later ++ e :: earlier →
    e.myToken = e.mToken → s.mClientAlive e.call = true → (s.calls e.call).InWait →
    (∀ e' ∈ later, e'.myToken ≤ e.myToken) → s.mSubscriptionInfo = some e.call

/-- When a call installs, the subscription that it replaces has the smaller token, if its subscriber still
waits with a live client. -/
def InOrder (s : ShellSubscriber) : Step → Prop
  | .install call =>
    ∀ myToken info token, s.calls call = .configured myToken → s.mMutex = none → s.mSubscriptionInfo = some info →
      s.calls info = .waiting token → s.mClientAlive info = true → token < myToken
  | _ => True

/-- The tokens of the calls and of the installs so far. -/
structure Inv (s : ShellSubscriber) : Prop where
  bound : ∀ call t, (s.calls call).myToken = some t → t ≤ s.mToken
  holder : ∀ call, (s.calls call).Holds → s.mMutex = some call
  /-- A call with an install is past it, and its token is that of the install. -/
  phase : ∀ e ∈ s.installs, s.calls e.call = .done ∨ s.calls e.call = .checking e.myToken ∨
    s.calls e.call = .waiting e.myToken ∨ s.calls e.call = .ended e.myToken
  entry : ∀ e ∈ s.installs, e.myToken ≤ e.mToken ∧ e.mToken ≤ s.mToken
  /-- A subscriber waits only when its token was the last one, as it then was at the install. -/
  newest : ∀ e ∈ s.installs, s.calls e.call = .waiting e.myToken → e.myToken = e.mToken
  /-- The current subscription is that of the last install. -/
  current : ∀ info, s.mSubscriptionInfo = some info → ∃ e earlier, s.installs = e :: earlier ∧ e.call = info

theorem inv_init : Inv {} := by
  constructor
  · intro call t ht
    cases ht
  · intro call hc
    exact hc.elim
  all_goals
    intro e he
    cases he

section

variable {s s' : ShellSubscriber} {call : Nat} {phase : Phase}

/-- A step that moves one call on. -/
structure Moves (s s' : ShellSubscriber) (call : Nat) (phase : Phase) : Prop where
  calls : s'.calls = Function.update s.calls call phase
  installs : s'.installs = s.installs
  mToken : s.mToken ≤ s'.mToken
  info : ∀ info, s'.mSubscriptionInfo = some info → s.mSubscriptionInfo = some info
  mutex : s'.mMutex = s.mMutex ∨ s.mMutex = none ∨ s.mMutex = some call
  holds : phase.Holds → s'.mMutex = some call
  bound : ∀ t, phase.myToken = some t → t ≤ s'.mToken

theorem Inv.moves (h : Inv s) (hm : Moves s s' call phase)
    (hphase : ∀ e ∈ s.installs, e.call = call → phase = .done ∨ phase = .checking e.myToken ∨
      phase = .waiting e.myToken ∨ phase = .ended e.myToken)
    (hnewest : ∀ e ∈ s.installs, e.call = call → phase = .waiting e.myToken → e.myToken = e.mToken) : Inv s' := by
  have hcalls : ∀ c, (c = call ∧ s'.calls c = phase) ∨ (c ≠ call ∧ s'.calls c = s.calls c) := by
    intro c
    rw [hm.calls]
    by_cases hc : c = call
    · exact Or.inl ⟨hc, by rw [hc, Function.update_self]⟩
    · exact Or.inr ⟨hc, Function.update_of_ne hc _ _⟩
  constructor
  · intro c t ht
    rcases hcalls c with ⟨-, he⟩ | ⟨-, he⟩
    · exact hm.bound t (he ▸ ht)
    · exact (h.bound c t (he ▸ ht)).trans hm.mToken
  · intro c hc
    rcases hcalls c with ⟨rfl, he⟩ | ⟨hne, he⟩
    · exact hm.holds (he ▸ hc)
    · -- another call that holds the mutex rules out that this one took or released it
      have hold := h.holder c (he ▸ hc)
      rcases hm.mutex with hsame | hfree | hmine
      · rw [hsame, hold]
      · rw [hfree] at hold
        cases hold
      · rw [hmine] at hold
        exact absurd (Option.some.inj hold).symm hne
  · intro e he
    rw [hm.installs] at he
    rcases hcalls e.call with ⟨hc, hp⟩ | ⟨-, hp⟩
    · rw [hp]
      exact hphase e he hc
    · rw [hp]
      exact h.phase e he
  · intro e he
    rw [hm.installs] at he
    exact ⟨(h.entry e he).1, (h.entry e he).2.trans hm.mToken⟩
  · intro e he hw
    rw [hm.installs] at he
    rcases hcalls e.call with ⟨hc, hp⟩ | ⟨-, hp⟩
    · exact hnewest e he hc (hp ▸ hw)
    · exact h.newest e he (hp ▸ hw)
  · intro info hinfo
    rw [hm.installs]
    exact h.current info (hm.info info hinfo)

/-- A step that is no install: what it can do to the property. -/
structure Quiet (s s' : ShellSubscriber) : Prop where
  installs : s'.installs = s.installs
  alive : ∀ c, s'.mClientAlive c = true → s.mClientAlive c = true
  inWait : ∀ c, (s'.calls c).InWait → (s.calls c).InWait
  /-- The subscription of a call is cleared by that call, after its wait. -/
  info : ∀ c, s.mSubscriptionInfo = some c → (s'.calls c).InWait → s'.mSubscriptionInfo = some c

theorem Quiet.refl (s : ShellSubscriber) : Quiet s s := ⟨rfl, fun _ h => h, fun _ h => h, fun _ h _ => h⟩

theorem NotDisplaced.quiet (h : NotDisplaced s) (hq : Quiet s s') : NotDisplaced s' := by
  intro later e earlier hs hlast halive hwait hlater
  rw [hq.installs] at hs
  have hinfo := h later e earlier hs hlast (hq.alive _ halive) (hq.inWait _ hwait) hlater
  exact hq.info _ hinfo hwait

theorem Moves.quiet (hm : Moves s s' call phase) (halive : s'.mClientAlive = s.mClientAlive)
    (hwait : phase.InWait → (s.calls call).InWait)
    (hinfo : ∀ c, s.mSubscriptionInfo = some c → s'.mSubscriptionInfo = some c ∨ (c = call ∧ ¬ phase.InWait)) : Quiet s s' := by
  have hcall : s'.calls call = phase := by rw [hm.calls, Function.update_self]
  refine ⟨hm.installs, fun c hc => halive ▸ hc, fun c hc => ?_, fun c hc hw => ?_⟩
  · by_cases hx : c = call
    · subst hx
      exact hwait (hcall ▸ hc)
    · rw [hm.calls, Function.update_of_ne hx] at hc
      exact hc
  · rcases hinfo c hc with hsame | ⟨rfl, hout⟩
    · exact hsame
    · exact absurd (hcall ▸ hw) hout

theorem Inv.not_installed (h : Inv s) (hp : s.calls call = .idle ∨ ∃ t, s.calls call = .reading t ∨ s.calls call = .configured t) :
    ∀ e ∈ s.installs, e.call ≠ call := by
  rintro e he rfl
  have hphase := h.phase e he
  rcases hp with hp | ⟨t, hp | hp⟩ <;> simp [hp] at hphase

theorem Inv.entry_token (h : Inv s) {e : Install} (he : e ∈ s.installs) {t : Int} (ht : (s.calls e.call).myToken = some t) :
    e.myToken = t := by
  rcases h.phase e he with hp | hp | hp | hp <;> rw [hp] at ht <;> cases ht
  all_goals rfl

theorem claimToken_step (h : Inv s) (call : Nat) : Inv (s.claimToken call) ∧ Quiet s (s.claimToken call) := by
  unfold claimToken
  split
  · rename_i hidle hfree
    have hnone := h.not_installed (Or.inl hidle)
    have hm : Moves s ({ s with mToken := s.mToken + 1 }.setCall call (.reading (s.mToken + 1))) call (.reading (s.mToken + 1)) := by
      refine ⟨rfl, rfl, ?_, fun _ hi => hi, Or.inl rfl, False.elim, fun t ht => ?_⟩
      · show s.mToken ≤ s.mToken + 1
        omega
      · exact le_of_eq (Option.some.inj ht).symm
    exact ⟨h.moves hm (fun e he hc => absurd hc (hnone e he)) (fun e he hc => absurd hc (hnone e he)),
      hm.quiet rfl False.elim fun _ hc => Or.inl hc⟩
  · exact ⟨h, Quiet.refl s⟩

theorem readConfig_step (h : Inv s) (call : Nat) (ok : Bool) : Inv (s.readConfig call ok) ∧ Quiet s (s.readConfig call ok) := by
  unfold readConfig
  split
  · rename_i myToken hread
    have hnone := h.not_installed (Or.inr ⟨myToken, Or.inl hread⟩)
    have hm : Moves s (s.setCall call (if ok then .configured myToken else .done)) call (if ok then .configured myToken else .done) := by
      refine ⟨rfl, rfl, le_refl _, fun _ hi => hi, Or.inl rfl, ?_, fun t ht => ?_⟩
      · cases ok <;> exact False.elim
      · cases ok
        · cases ht
        · exact h.bound call t (by rw [hread]; exact ht)
    refine ⟨h.moves hm (fun e he hc => absurd hc (hnone e he)) (fun e he hc => absurd hc (hnone e he)),
      hm.quiet rfl ?_ fun _ hc => Or.inl hc⟩
    cases ok <;> exact False.elim
  · exact ⟨h, Quiet.refl s⟩

theorem checkEnd_step (h : Inv s) (call : Nat) : Inv (s.checkEnd call) ∧ Quiet s (s.checkEnd call) := by
  unfold checkEnd
  split
  · rename_i myToken hcheck
    have hmine : s.mMutex = some call := h.holder call (by rw [hcheck]; exact trivial)
    have hbound : myToken ≤ s.mToken := h.bound call myToken (by rw [hcheck]; rfl)
    have htoken : ∀ e ∈ s.installs, e.call = call → e.myToken = myToken := by
      rintro e he rfl
      exact h.entry_token he (by rw [hcheck]; rfl)
    split
    · have hm : Moves s (s.setCall call (.ended myToken)) call (.ended myToken) :=
        ⟨rfl, rfl, le_refl _, fun _ hi => hi, Or.inl rfl, fun _ => hmine, fun t ht => (Option.some.inj ht) ▸ hbound⟩
      refine ⟨h.moves hm (fun e he hc => ?_) (fun e he hc hw => nomatch hw), hm.quiet rfl False.elim fun _ hc => Or.inl hc⟩
      rw [htoken e he hc]
      exact Or.inr (Or.inr (Or.inr rfl))
    · rename_i hpred
      rw [not_or, not_not] at hpred
      have hm : Moves s ({ s with mMutex := none }.setCall call (.waiting myToken)) call (.waiting myToken) :=
        ⟨rfl, rfl, le_refl _, fun _ hi => hi, Or.inr (Or.inr hmine), False.elim, fun t ht => (Option.some.inj ht) ▸ hbound⟩
      refine ⟨h.moves hm (fun e he hc => ?_) (fun e he hc _ => ?_), hm.quiet rfl (fun _ => ?_) fun _ hc => Or.inl hc⟩
      · rw [htoken e he hc]
        exact Or.inr (Or.inr (Or.inl rfl))
      · -- the call goes to sleep with the last token claimed, so none was claimed since its install
        have hentry := h.entry e he
        have ht := htoken e he hc
        have hlast := hpred.1
        omega
      · rw [hcheck]
        exact trivial
  · exact ⟨h, Quiet.refl s⟩

theorem wake_step (h : Inv s) (call : Nat) : Inv (s.wake call) ∧ Quiet s (s.wake call) := by
  unfold wake
  split
  · rename_i myToken hwait hfree
    have hm : Moves s ({ s with mMutex := some call }.setCall call (.checking myToken)) call (.checking myToken) := by
      refine ⟨rfl, rfl, le_refl _, fun _ hi => hi, Or.inr (Or.inl hfree), fun _ => rfl, fun t ht => ?_⟩
      exact h.bound call t (by rw [hwait]; exact ht)
    refine ⟨h.moves hm ?_ (fun e he hc hw => nomatch hw), hm.quiet rfl (fun _ => ?_) fun _ hc => Or.inl hc⟩
    · rintro e he rfl
      rw [h.entry_token he (t := myToken) (by rw [hwait]; rfl)]
      exact Or.inr (Or.inl rfl)
    · rw [hwait]
      exact trivial
  · exact ⟨h, Quiet.refl s⟩

theorem timeout_step (h : Inv s) (timeoutSec : Nat → Int) (call : Nat) :
    Inv (s.timeout timeoutSec call) ∧ Quiet s (s.timeout timeoutSec call) := by
  unfold timeout
  split
  · rename_i myToken hwait hfree
    split
    · have hm : Moves s ({ s with mMutex := some call }.setCall call (.ended myToken)) call (.ended myToken) := by
        refine ⟨rfl, rfl, le_refl _, fun _ hi => hi, Or.inr (Or.inl hfree), fun _ => rfl, fun t ht => ?_⟩
        exact h.bound call t (by rw [hwait]; exact ht)
      refine ⟨h.moves hm ?_ (fun e he hc hw => nomatch hw), hm.quiet rfl False.elim fun _ hc => Or.inl hc⟩
      rintro e he rfl
      rw [h.entry_token he (t := myToken) (by rw [hwait]; rfl)]
      exact Or.inr (Or.inr (Or.inr rfl))
    · exact ⟨h, Quiet.refl s⟩
  · exact ⟨h, Quiet.refl s⟩

theorem clear_step (h : Inv s) (call : Nat) : Inv (s.clear call) ∧ Quiet s (s.clear call) := by
  unfold clear
  split
  · rename_i myToken hended
    have hmine : s.mMutex = some call := h.holder call (by rw [hended]; exact trivial)
    have hm : Moves s ({ s with
        mSubscriptionInfo := if s.mSubscriptionInfo = some call then none else s.mSubscriptionInfo
        mMutex := none }.setCall call .done) call .done := by
      refine ⟨rfl, rfl, le_refl _, fun info hi => ?_, Or.inr (Or.inr hmine), False.elim, fun t ht => nomatch ht⟩
      simp only [setCall] at hi
      split at hi
      · cases hi
      · exact hi
    refine ⟨h.moves hm (fun _ _ _ => Or.inl rfl) (fun e he hc hw => nomatch hw), hm.quiet rfl False.elim fun c hc => ?_⟩
    by_cases hx : c = call
    · exact Or.inr ⟨hx, id⟩
    · refine Or.inl ?_
      show (if s.mSubscriptionInfo = some call then none else s.mSubscriptionInfo) = some c
      rw [hc, if_neg fun he => hx (Option.some.inj he)]
  · exact ⟨h, Quiet.refl s⟩

theorem writes_step (h : Inv s) (writes : List Bool) :
    Inv (writes.foldl attemptWriteToPipeLocked s) ∧ Quiet s (writes.foldl attemptWriteToPipeLocked s) := by
  induction writes generalizing s with
  | nil => exact ⟨h, Quiet.refl s⟩
  | cons ok writes ih =>
    have hone : Inv (s.attemptWriteToPipeLocked ok) ∧ Quiet s (s.attemptWriteToPipeLocked ok) := by
      unfold attemptWriteToPipeLocked
      split
      · split
        · exact ⟨h, Quiet.refl s⟩
        · refine ⟨⟨h.bound, h.holder, h.phase, h.entry, h.newest, h.current⟩, rfl, fun c hc => ?_, fun _ hc => hc, fun _ hc _ => hc⟩
          by_contra hdead
          dsimp only at hc
          rw [Function.update_apply] at hc
          split at hc
          · cases hc
          · exact hdead hc
      · exact ⟨h, Quiet.refl s⟩
    obtain ⟨hinv, hq⟩ := ih hone.1
    have hp := hone.2
    exact ⟨hinv, hq.installs.trans hp.installs, fun c hc => hp.alive c (hq.alive c hc), fun c hc => hp.inWait c (hq.inWait c hc),
      fun c hc hw => hq.info c (hp.info c hc (hq.inWait c hw)) hw⟩

theorem helper_step (h : Inv s) (call : Nat) (writes : List Bool) :
    Inv (s.pullAndSendHeartbeats call writes) ∧ Quiet s (s.pullAndSendHeartbeats call writes) := by
  unfold pullAndSendHeartbeats
  split
  · split
    · exact ⟨⟨h.bound, h.holder, h.phase, h.entry, h.newest, h.current⟩, rfl, fun _ hc => hc, fun _ hc => hc, fun _ hc _ => hc⟩
    · exact writes_step h writes
  · exact ⟨h, Quiet.refl s⟩

theorem onLogEvent_step (h : Inv s) (writes : List Bool) : Inv (s.onLogEvent writes) ∧ Quiet s (s.onLogEvent writes) := by
  unfold onLogEvent
  split
  · exact writes_step h writes
  · exact ⟨h, Quiet.refl s⟩

/-- An install that the state allows. -/
structure Installs (s s' : ShellSubscriber) (call : Nat) (myToken : Int) : Prop where
  configured : s.calls call = .configured myToken
  free : s.mMutex = none
  calls : s'.calls = Function.update s.calls call (.checking myToken)
  mToken : s'.mToken = s.mToken
  mutex : s'.mMutex = some call
  info : s'.mSubscriptionInfo = some call
  alive : s'.mClientAlive = s.mClientAlive
  installs : s'.installs = ⟨call, myToken, s.mToken⟩ :: s.installs

theorem install_cases (s : ShellSubscriber) (call : Nat) :
    s.install call = s ∨ ∃ myToken, Installs s (s.install call) call myToken := by
  unfold install
  split
  · rename_i myToken hconf hfree
    exact Or.inr ⟨myToken, hconf, hfree, rfl, rfl, rfl, rfl, rfl, rfl⟩
  · exact Or.inl rfl

theorem Installs.inv {myToken : Int} (hi : Installs s s' call myToken) (h : Inv s) : Inv s' := by
  have hnone := h.not_installed (Or.inr ⟨myToken, Or.inr hi.configured⟩)
  have hself : s'.calls call = .checking myToken := by rw [hi.calls, Function.update_self]
  have hother : ∀ c, c ≠ call → s'.calls c = s.calls c := fun c hc => by rw [hi.calls, Function.update_of_ne hc]
  have hbound : myToken ≤ s.mToken := h.bound call myToken (by rw [hi.configured]; rfl)
  constructor
  · intro c t ht
    rw [hi.mToken]
    by_cases hc : c = call
    · rw [hc, hself] at ht
      cases ht
      exact hbound
    · exact h.bound c t (hother c hc ▸ ht)
  · intro c hc
    by_cases hx : c = call
    · rw [hx, hi.mutex]
    · have hheld := h.holder c (hother c hx ▸ hc)
      rw [hi.free] at hheld
      cases hheld
  · intro e he
    rw [hi.installs] at he
    rcases List.mem_cons.1 he with rfl | he
    · exact Or.inr (Or.inl hself)
    · rw [hother _ (hnone e he)]
      exact h.phase e he
  · intro e he
    rw [hi.installs] at he
    rw [hi.mToken]
    rcases List.mem_cons.1 he with rfl | he
    · exact ⟨hbound, le_refl _⟩
    · exact h.entry e he
  · intro e he hw
    rw [hi.installs] at he
    rcases List.mem_cons.1 he with rfl | he
    · rw [hself] at hw
      cases hw
    · exact h.newest e he (hother _ (hnone e he) ▸ hw)
  · intro info hinfo
    rw [hi.info] at hinfo
    exact ⟨_, _, hi.installs, Option.some.inj hinfo⟩

theorem Installs.notDisplaced {myToken : Int} (hi : Installs s s' call myToken) (h : Inv s) (hp : NotDisplaced s)
    (hok : InOrder s (.install call)) : NotDisplaced s' := by
  intro later e earlier hs hlast halive hwait hlater
  rw [hi.installs] at hs
  cases later with
  | nil =>
    obtain ⟨rfl, -⟩ := List.cons.inj hs
    exact hi.info
  | cons first later =>
    obtain ⟨rfl, htail⟩ := List.cons.inj hs
    have he : e ∈ s.installs := by
      rw [htail]
      exact List.mem_append_right _ List.mem_cons_self
    have hne : e.call ≠ call := h.not_installed (Or.inr ⟨myToken, Or.inr hi.configured⟩) e he
    rw [hi.alive] at halive
    rw [hi.calls, Function.update_of_ne hne] at hwait
    have hinfo := hp later e earlier htail hlast halive hwait fun e' he' => hlater e' (List.mem_cons_of_mem _ he')
    have hle : myToken ≤ e.myToken := hlater _ List.mem_cons_self
    -- the mutex is free, so the subscriber sleeps, and the install is not in order
    have hsleeps : s.calls e.call = .waiting e.myToken := by
      rcases h.phase e he with hx | hx | hx | hx
      · rw [hx] at hwait
        exact hwait.elim
      · have hheld := h.holder e.call (by rw [hx]; exact trivial)
        rw [hi.free] at hheld
        cases hheld
      · exact hx
      · rw [hx] at hwait
        exact hwait.elim
    have hlt := hok myToken e.call e.myToken hi.configured hi.free hinfo hsleeps halive
    omega

theorem Installs.displaced {myToken token : Int} {i : Nat} (hi : Installs s s' call myToken) (h : Inv s)
    (hinfo : s.mSubscriptionInfo = some i) (hsleeps : s.calls i = .waiting token) (halive : s.mClientAlive i = true)
    (hle : myToken ≤ token) : ¬ NotDisplaced s' := by
  intro hp
  obtain ⟨e, earlier, hs, rfl⟩ := h.current i hinfo
  have he : e ∈ s.installs := by
    rw [hs]
    exact List.mem_cons_self
  have htoken : e.myToken = token := h.entry_token he (by rw [hsleeps]; rfl)
  have hne : e.call ≠ call := h.not_installed (Or.inr ⟨myToken, Or.inr hi.configured⟩) e he
  have hwaits : s'.calls e.call = .waiting token := by rw [hi.calls, Function.update_of_ne hne, hsleeps]
  have hstill := hp [⟨call, myToken, s.mToken⟩] e earlier (by rw [hi.installs, hs]; rfl)
    (h.newest e he (htoken ▸ hsleeps)) (by rw [hi.alive]; exact halive) (by rw [hwaits]; exact trivial)
    (fun e' he' => by
      rw [List.mem_singleton.1 he', htoken]
      exact hle)
  rw [hi.info] at hstill
  exact hne (Option.some.inj hstill).symm

theorem step_good (timeoutSec : Nat → Int) (e : Step) (h : Inv s) (hp : NotDisplaced s) (hok : InOrder s e) :
    Inv (s.step timeoutSec e) ∧ NotDisplaced (s.step timeoutSec e) := by
  have hquiet : ∀ {s' : ShellSubscriber}, Inv s' ∧ Quiet s s' → Inv s' ∧ NotDisplaced s' := fun hs' => ⟨hs'.1, hp.quiet hs'.2⟩
  cases e with
  | claimToken call => exact hquiet (claimToken_step h call)
  | readConfig call ok => exact hquiet (readConfig_step h call ok)
  | install call =>
    show Inv (s.install call) ∧ NotDisplaced (s.install call)
    rcases install_cases s call with heq | ⟨myToken, hi⟩
    · rw [heq]
      exact ⟨h, hp⟩
    · exact ⟨hi.inv h, hi.notDisplaced h hp hok⟩
  | checkEnd call => exact hquiet (checkEnd_step h call)
  | wake call => exact hquiet (wake_step h call)
  | timeout call => exact hquiet (timeout_step h timeoutSec call)
  | clear call => exact hquiet (clear_step h call)
  | helper call writes => exact hquiet (helper_step h call writes)
  | onLogEvent writes => exact hquiet (onLogEvent_step h writes)

theorem step_bad (timeoutSec : Nat → Int) (e : Step) (h : Inv s) (hok : ¬ InOrder s e) :
    ¬ NotDisplaced (s.step timeoutSec e) := by
  cases e with
  | install call =>
    unfold InOrder at hok
    push Not at hok
    obtain ⟨myToken, info, token, hconf, hfree, hinfo, hsleeps, halive, hle⟩ := hok
    rcases install_cases s call with heq | ⟨myToken', hi⟩
    · unfold install at heq
      simp only [hconf, hfree] at heq
      exact absurd (congrArg (fun x => x.mMutex) heq) (by simp [setCall, hfree])
    · rw [hi.configured] at hconf
      cases hconf
      exact hi.displaced h hinfo hsleeps halive hle
  | _ => exact absurd trivial hok

end

/-- A newer subscription is never displaced by an older one: for any calls with any time-outs and any
interleaving of their steps, it holds after every step exactly when every install is in order. -/
theorem notDisplaced_iff (timeoutSec : Nat → Int) (es : List Step) :
    (∀ n, NotDisplaced ((es.take n).foldl (step timeoutSec) {})) ↔ RunOk (step timeoutSec) InOrder {} es := by
  refine RunOk.iff_prefixes (I := Inv) (P := fun _ s => NotDisplaced s) (fun _ s e hI hP hok => step_good timeoutSec e hI hP hok)
    (fun _ s e hI _ hok => step_bad timeoutSec e hI hok) inv_init ?_ es
  intro later e earlier hs
  simp at hs

/-- The second of two subscribers installs while the first, which has the smaller token, still reads its
config; then the first one installs. -/
theorem older_displaces_newer :
    ¬ ∀ es : List Step, ∀ n, NotDisplaced ((es.take n).foldl (step fun _ => 0) {}) := by
  intro h
  have hbad := h [.claimToken 0, .claimToken 1, .readConfig 1 true, .install 1, .checkEnd 1, .readConfig 0 true, .install 0] 7
    [⟨0, 1, 2⟩] ⟨1, 2, 2⟩ [] rfl rfl rfl trivial (by decide)
  exact absurd hbad (by decide)

end ShellSubscriber

end Statsd.Shell

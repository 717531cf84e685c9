import SdLoader.Lib.Signal
import SdLoader.Toolbox.Navigation
import SdLoader.Volumes.Selector

/-!
# One press, one answer

`btn_wait_timeout_single1` of `bdk/utils/btn.c`, called again and again.  Each call keeps the
buttons it has found last, but not for the next call, which begins by looking anew; what happens to
the buttons between two calls is seen by neither.

The world is a `Trace`: what every look at the buttons finds, and what every reading of the clock
gives, which need not even go forward.  A call makes looks that follow one another; any number of
looks and readings may go by between two calls.

* `Answer.Pressed` — an answer that is a press: the button was up at one look of the call and down,
  on its own, at the next.
* `waitPass_all`, `answer_ok` — a pass of the loop, and so a call, answers with a press that it has
  seen or with nothing.
* `returned_lt_begun` — a call begins after the last look of every earlier one.
* `Detects` — what is promised of all calls: a hold is answered once.
* `OneStep` — what follows for the menus: a press moves or confirms once, in all of them together.
-/

set_option autoImplicit false

namespace SdLoader
namespace Tui

open Loop (Pass)
open Signal (Hold Rise)
open Volumes (btnIsSingle)

universe u v

/-! ## Looking at the buttons -/

/-- The buttons `btn_read` knows. -/
inductive Button
  | volDown
  | volUp
  | power
deriving DecidableEq

/-- Its bit. -/
def Button.mask : Button → UInt8
  | volDown => btnVolDown
  | volUp => btnVolUp
  | power => btnPower

/-- What a call of `btn_read` finds. -/
structure Pins where
  /-- `gpio_read(GPIO_PORT_X, GPIO_PIN_7)` -/
  x7 : Bool
  /-- `gpio_read(GPIO_PORT_X, GPIO_PIN_6)` -/
  x6 : Bool
  /-- What `i2c_recv_byte` gets from `MAX77620_REG_ONOFFSTAT`. -/
  onOffStat : UInt8

/-- `MAX77620_ONOFFSTAT_EN0` -/
def onOffStatEn0 : UInt8 := 4

/-- `btn_read` -/
def btnRead (p : Pins) : UInt8 :=
  let res : UInt8 := 0
  let res := if !p.x7 then res ||| btnVolDown else res
  let res := if !p.x6 then res ||| btnVolUp else res
  if p.onOffStat &&& onOffStatEn0 ≠ 0 then res ||| btnPower else res

/-- A button that is down pulls its pin low, or sets its bit in the power controller. -/
def Pins.down (p : Pins) : Button → Prop
  | .volDown => p.x7 = false
  | .volUp => p.x6 = false
  | .power => p.onOffStat &&& onOffStatEn0 ≠ 0

/-- What the program comes to read, look by look and reading by reading. -/
structure Trace where
  /-- What the looks find. -/
  pins : ℕ → Pins
  /-- What `get_tmr_ms` returns. -/
  ms : ℕ → UInt32

/-- A place in a trace: how many looks and readings of the clock have gone by. -/
structure Instant where
  looks : ℕ
  ticks : ℕ

/-- So many looks and readings later. -/
def Instant.after (i gap : Instant) : Instant := ⟨i.looks + gap.looks, i.ticks + gap.ticks⟩

/-! ## A call -/

/-- The top of the loop of `btn_wait_timeout_single1`. -/
structure Poll where
  btnPrev : UInt8
  now : Instant

/-- What the call returns, and when. -/
structure Answer where
  btn : UInt8
  now : Instant

/-- The last look before the answer. -/
def Answer.lastLook (r : Answer) : ℕ := r.now.looks - 1

/-- The body of the loop. -/
def waitPass (tr : Trace) (timeout : UInt32) (s : Poll) : Pass Poll Answer :=
  if tr.ms s.now.ticks < timeout then
    let btn := btnRead (tr.pins s.now.looks)
    let now : Instant := ⟨s.now.looks + 1, s.now.ticks + 1⟩
    if btnIsSingle btn then
      if btn &&& s.btnPrev = 0 then .leave ⟨btn, now⟩ else .again ⟨btn, now⟩
    else .again ⟨btn, now⟩
  else .leave ⟨0, s.now.looks, s.now.ticks + 1⟩

/-- `btn_wait_timeout_single1`, with `n` passes of its loop. -/
def btnWaitTimeoutSingle1 (tr : Trace) (timeMs : UInt32) (n : ℕ) (now : Instant) :
    Pass Poll Answer :=
  Loop.run (waitPass tr (tr.ms now.ticks + timeMs)) n
    ⟨btnRead (tr.pins now.looks), now.looks + 1, now.ticks + 1⟩

/-- A call in a sequence of calls. -/
structure Call where
  /-- What goes by before it. -/
  gap : Instant
  timeMs : UInt32
  /-- The passes of its loop that are followed. -/
  passes : ℕ

/-- What it returns, after the answer `r` to the call before; nothing if it is not over by then. -/
def Call.answer (tr : Trace) (c : Call) (r : Answer) : Option Answer :=
  match btnWaitTimeoutSingle1 tr c.timeMs c.passes (r.now.after c.gap) with
  | .leave r' => some r'
  | .again _ => none

/-- One call after the other. -/
def callStep (tr : Trace) (s : Option Answer) (c : Call) : Option Answer := s.bind (c.answer tr)

section
variable (tr : Trace) (now : Instant) (cs : ℕ → Call)

/-- The answer before call `k`; before the first one, there is only the place in the trace. -/
def answers : ℕ → Option Answer := Machine.trail (callStep tr) (some ⟨0, now⟩) cs

/-- Where call `k` begins, if the calls before it have returned. -/
def begun (k : ℕ) : Option Instant := (answers tr now cs k).map fun r ↦ r.now.after (cs k).gap

/-- What call `k` returns, if it does. -/
def returned (k : ℕ) : Option Answer := answers tr now cs (k + 1)

end

/-- The answer is the button `b`, which was up at the look `t` and at the next one the only one
down. -/
structure Answer.Pressed (tr : Trace) (r : Answer) (b : Button) (t : ℕ) : Prop where
  btn : r.btn = b.mask
  last : r.lastLook = t + 1
  only : ∀ c, (tr.pins (t + 1)).down c ↔ c = b
  up : ¬ (tr.pins t).down b

/-! ## What a look tells -/

theorem btnIsSingle_iff (btn : UInt8) : btnIsSingle btn = true ↔ ∃ b : Button, btn = b.mask := by
  rw [btnIsSingle, Bool.or_eq_true, Bool.or_eq_true, beq_iff_eq, beq_iff_eq, beq_iff_eq]
  constructor
  · rintro ((rfl | rfl) | rfl)
    · exact ⟨.volDown, rfl⟩
    · exact ⟨.volUp, rfl⟩
    · exact ⟨.power, rfl⟩
  · rintro ⟨b, rfl⟩
    cases b <;> decide

/-- The bit of a button tells whether it is down. -/
theorem down_iff (p : Pins) (b : Button) : p.down b ↔ btnRead p &&& b.mask ≠ 0 := by
  obtain ⟨x7, x6, stat⟩ := p
  by_cases hpower : stat &&& onOffStatEn0 ≠ 0 <;> cases x7 <;> cases x6 <;> cases b <;>
    simp [Pins.down, btnRead, hpower] <;> decide

/-- The look finds only that bit if the button is down on its own. -/
theorem alone_of_eq_mask {p : Pins} {b : Button} (h : btnRead p = b.mask) (c : Button) :
    p.down c ↔ c = b := by
  rw [down_iff, h]
  cases b <;> cases c <;> decide

/-! ## One call -/

section
variable {tr : Trace} {first : ℕ}

/-- At the top of the loop: `btn_prev` is what the look before has found, and the call has made
it. -/
def Poll.Ok (tr : Trace) (first : ℕ) (s : Poll) : Prop :=
  ∃ t, first ≤ t ∧ s.now.looks = t + 1 ∧ s.btnPrev = btnRead (tr.pins t)

/-- The answer of a call that has begun with the look `first` is a press that the call has seen, or
nothing. -/
structure Answer.Ok (tr : Trace) (first : ℕ) (r : Answer) : Prop where
  looked : first < r.now.looks
  pressed : r.btn ≠ 0 → ∃ b t, first ≤ t ∧ r.Pressed tr b t

/-- **One pass** goes round with what it has just found, or leaves with a press or with nothing. -/
theorem waitPass_all (timeout : UInt32) {s : Poll} (hs : s.Ok tr first) :
    (waitPass tr timeout s).All (Poll.Ok tr first) (Answer.Ok tr first) := by
  obtain ⟨t, hfirst, hlooks, hprev⟩ := hs
  have hagain : Poll.Ok tr first ⟨btnRead (tr.pins s.now.looks), s.now.looks + 1,
      s.now.ticks + 1⟩ :=
    ⟨s.now.looks, by omega, rfl, rfl⟩
  simp only [waitPass]
  split
  · split
    · next hsingle =>
      split
      · next hnew =>
        obtain ⟨b, hb⟩ := (btnIsSingle_iff _).mp hsingle
        refine ⟨Nat.lt_succ_of_le (hlooks ▸ Nat.le_succ_of_le hfirst), fun _ ↦
          ⟨b, t, hfirst, hb, hlooks, ?_, ?_⟩⟩
        · rw [← hlooks]
          exact alone_of_eq_mask hb
        · rw [hb, hprev, UInt8.and_comm] at hnew
          exact fun hdown ↦ (down_iff _ _).mp hdown hnew
      · exact hagain
    · exact hagain
  · exact ⟨hlooks ▸ Nat.lt_succ_of_le hfirst, fun hne ↦ absurd rfl hne⟩

/-- **One call** answers with a press that it has seen, or with nothing. -/
theorem answer_ok {c : Call} {r r' : Answer} (h : c.answer tr r = some r') :
    r'.Ok tr (r.now.after c.gap).looks := by
  rw [Call.answer, btnWaitTimeoutSingle1] at h
  set now := r.now.after c.gap
  have hstart : Poll.Ok tr now.looks ⟨btnRead (tr.pins now.looks), now.looks + 1, now.ticks + 1⟩ :=
    ⟨now.looks, Nat.le_refl _, rfl, rfl⟩
  have hall := Loop.run_all (fun s ↦ waitPass_all (tr.ms now.ticks + c.timeMs)) hstart c.passes
  split at h
  · next hleave =>
    rw [hleave] at hall
    exact Option.some.inj h ▸ hall
  · cases h

/-- A call returns once the clock shows a time that is not before its timeout, whatever it has shown
until then. -/
theorem ends_of_late {timeout : UInt32} {k : ℕ} (hlate : ¬ tr.ms k < timeout) {s : Poll}
    (hk : s.now.ticks ≤ k) : Loop.Ends (waitPass tr timeout) s := by
  refine Loop.ends_of_measure (fun s ↦ s.now.ticks ≤ k) (fun s ↦ k - s.now.ticks) ?_ hk
  intro s s' hs hpass
  have hnow : tr.ms s.now.ticks < timeout ∧ s'.now.ticks = s.now.ticks + 1 := by
    simp only [waitPass] at hpass
    split at hpass
    · next hbefore =>
      refine ⟨hbefore, ?_⟩
      split at hpass
      · split at hpass
        · cases hpass
        · rw [← Pass.again.inj hpass]
      · rw [← Pass.again.inj hpass]
    · cases hpass
  have hne : s.now.ticks ≠ k := by
    intro heq
    exact hlate (heq ▸ hnow.1)
  omega

end

/-! ## All calls -/

/-- A call that has returned would not do otherwise if more passes of its loop were followed. -/
theorem answer_mono {tr : Trace} {c : Call} {r r' : Answer} (h : c.answer tr r = some r') {n : ℕ}
    (hn : c.passes ≤ n) : Call.answer tr { c with passes := n } r = some r' := by
  rw [Call.answer, btnWaitTimeoutSingle1] at h ⊢
  split at h
  · next hleave =>
    rw [Loop.run_leave_mono hleave hn]
    exact h
  · cases h

/-- A call returns if the clock ever shows, once it has begun, that its time is over. -/
theorem exists_answer {tr : Trace} {c : Call} {r : Answer} {i : Instant}
    (hi : r.now.after c.gap = i) {k : ℕ} (hk : i.ticks < k)
    (hlate : ¬ tr.ms k < tr.ms i.ticks + c.timeMs) :
    ∃ n r', Call.answer tr { c with passes := n } r = some r' := by
  have hends : Loop.Ends (waitPass tr (tr.ms i.ticks + c.timeMs))
      ⟨btnRead (tr.pins i.looks), i.looks + 1, i.ticks + 1⟩ := ends_of_late hlate hk
  obtain ⟨n, r', hleave⟩ := hends
  refine ⟨n, r', ?_⟩
  rw [Call.answer, btnWaitTimeoutSingle1, hi, hleave]

section
variable {tr : Trace} {now : Instant} {cs : ℕ → Call}

theorem answers_succ (k : ℕ) :
    answers tr now cs (k + 1) = (answers tr now cs k).bind ((cs k).answer tr) := rfl

/-- A call that has returned has begun, and has answered with a press it has seen, or nothing. -/
theorem returned_ok {k : ℕ} {r : Answer} (h : returned tr now cs k = some r) :
    ∃ i, begun tr now cs k = some i ∧ r.Ok tr i.looks := by
  rw [returned, answers_succ] at h
  obtain ⟨r', hr', hanswer⟩ := Option.bind_eq_some_iff.mp h
  exact ⟨r'.now.after (cs k).gap, by rw [begun, hr', Option.map_some], answer_ok hanswer⟩

/-- The place in the trace only moves forward. -/
theorem answers_mono {k l : ℕ} (hkl : k ≤ l) {r r' : Answer} (hr : answers tr now cs k = some r)
    (hr' : answers tr now cs l = some r') : r.now.looks ≤ r'.now.looks := by
  induction hkl generalizing r' with
  | refl =>
    rw [hr] at hr'
    rw [Option.some.inj hr']
  | step hkl ih =>
    rw [Nat.succ_eq_add_one, answers_succ] at hr'
    obtain ⟨r'', hr'', hanswer⟩ := Option.bind_eq_some_iff.mp hr'
    have hbegin : r''.now.looks + _ < r'.now.looks := (answer_ok hanswer).looked
    have hbefore := ih hr''
    omega

/-- A later call begins after the last look of an earlier one. -/
theorem returned_lt_begun {k l : ℕ} (hkl : k < l) {r : Answer} {i : Instant}
    (hr : returned tr now cs k = some r) (hi : begun tr now cs l = some i) :
    r.lastLook < i.looks := by
  obtain ⟨r', hr', rfl⟩ := Option.map_eq_some_iff.mp hi
  have hmono : r.now.looks ≤ r'.now.looks := answers_mono hkl hr hr'
  obtain ⟨j, -, hok⟩ := returned_ok hr
  have hlooked := hok.looked
  show r.now.looks - 1 < r'.now.looks + _
  omega

variable (tr now cs) in
/-- Call `k` answers with the button `b`, which it has found up at look `i` and down at look `j`. -/
def Sees (b : Button) (k i j : ℕ) : Prop :=
  ∃ r, returned tr now cs k = some r ∧ r.Pressed tr b i ∧ j = i + 1 ∧
    ∃ first, begun tr now cs k = some first ∧ first.looks ≤ i

theorem Sees.rise {b : Button} {k i j : ℕ} (h : Sees tr now cs b k i j) :
    Rise (fun t ↦ (tr.pins t).down b) i j := by
  obtain ⟨r, -, hpressed, rfl, -⟩ := h
  exact ⟨Nat.lt_succ_self i, hpressed.up, (hpressed.only b).mpr rfl⟩

theorem Sees.le {b : Button} {k l i j i' j' : ℕ} (h : Sees tr now cs b k i j)
    (h' : Sees tr now cs b l i' j') (hkl : k < l) : j ≤ i' := by
  obtain ⟨r, hr, hpressed, rfl, -⟩ := h
  obtain ⟨-, -, -, -, first, hfirst, hle⟩ := h'
  have hlt := returned_lt_begun hkl hr hfirst
  rw [hpressed.last] at hlt
  omega

/-- A button that is returned has been pressed, before the eyes of the call. -/
theorem exists_pressed {k : ℕ} {r : Answer} (hr : returned tr now cs k = some r) (hne : r.btn ≠ 0) :
    ∃ first b t, begun tr now cs k = some first ∧ first.looks ≤ t ∧ r.Pressed tr b t := by
  obtain ⟨first, hfirst, hok⟩ := returned_ok hr
  obtain ⟨b, t, hle, hpressed⟩ := hok.pressed hne
  exact ⟨first, b, t, hfirst, hle, hpressed⟩

variable (tr now cs) in
/-- What is promised of all calls. -/
structure Detects : Prop where
  /-- A button that is returned was the only one down at the last look of the call, and was up at
  the look before, which the same call has made. -/
  press : ∀ k r, returned tr now cs k = some r → r.btn ≠ 0 →
    ∃ first b t, begun tr now cs k = some first ∧ first.looks ≤ t ∧ r.Pressed tr b t
  /-- Where a button is down at look after look, seen or not, and whatever the others do, at most
  one call returns it. -/
  once : ∀ b H, Hold (fun t ↦ (tr.pins t).down b) H →
    {k | ∃ r, returned tr now cs k = some r ∧ r.btn = b.mask ∧ r.lastLook ∈ H}.Subsingleton

theorem Button.mask_injective : Function.Injective Button.mask := by
  intro b c h
  cases b <;> cases c <;> first | rfl | exact absurd h (by decide)

theorem Button.mask_ne_zero (b : Button) : b.mask ≠ 0 := by
  cases b <;> decide

/-- **Every call answers a press of its own.** -/
theorem detects (tr : Trace) (now : Instant) (cs : ℕ → Call) : Detects tr now cs where
  press k r := exists_pressed
  once := by
    intro b H hhold
    have hsees : {k | ∃ i j, Sees tr now cs b k i j ∧ j ∈ H}.Subsingleton :=
      hhold.subsingleton (fun k i j ↦ Sees.rise) fun k l i j i' j' ↦ Sees.le
    refine hsees.anti ?_
    rintro k ⟨r, hr, hbtn, hmem⟩
    obtain ⟨first, c, t, hfirst, hle, hpressed⟩ := exists_pressed hr (hbtn ▸ b.mask_ne_zero)
    obtain rfl : b = c := Button.mask_injective (hbtn.symm.trans hpressed.btn)
    rw [hpressed.last] at hmem
    exact ⟨t, t + 1, ⟨r, hr, hpressed, rfl, first, hfirst, hle⟩, hmem⟩

end

/-- Power is held for four looks, let go for two, and held again; the first call returns it, the
second begins in the middle of the hold and runs into its timeout, the third returns it again. -/
example :
    let tr : Trace := ⟨fun k ↦ ⟨true, true, if k = 0 ∨ k = 5 ∨ k = 6 then 0 else 4⟩,
      fun k ↦ UInt32.ofNat k⟩
    (List.range 3).map (fun k ↦ (returned tr ⟨0, 0⟩ (fun _ ↦ ⟨⟨0, 0⟩, 4, 9⟩) k).map Answer.btn) =
      [some 1, some 0, some 1] := by
  decide

/-! ## Menus -/

section
variable {ι : Type v} {P : Type u}

/-- The entry that `BTN_POWER` is for. -/
def MenuNodes.confirmed : State P → Turn P → Option P
  | .running selected _, t =>
    if t.btn &&& btnVolUp ≠ 0 ∨ t.btn &&& btnVolDown ≠ 0 ∨ t.btn &&& btnPower = 0 then none
    else some selected
  | _, _ => none

/-- The turn selects no other entry, confirms none and leaves the menu at most for its timeout. -/
def MenuNodes.Idle [DecidableEq P] (m : MenuNodes P) (n : ℕ) (s : State P) (t : Turn P) : Prop :=
  (m.step n s t = s ∨ m.step n s t = .returned .timeout) ∧ confirmed s t = none

/-- The callback of an entry is run only if the entry is confirmed. -/
theorem confirmed_of_called {m : MenuNodes P} {s : State P} {t : Turn P} {q : P}
    (h : m.called s t = some q) : MenuNodes.confirmed s t = some q := by
  match s with
  | .running selected disabled =>
    rw [MenuNodes.called] at h
    rw [MenuNodes.confirmed]
    split at h
    · cases h
    · next hbtn =>
      rw [if_neg hbtn]
      split at h
      · exact h
      · cases h
  | .returned _ => cases h
  | .hung => cases h
  | .crashed => cases h

/-- A turn of one of the activations of `tui_menu_start_rot`.  They may take turns in any order, of
which that of a menu and its submenus is one. -/
structure Round (ι : Type v) (P : Type u) where
  /-- The activation. -/
  who : ι
  /-- What goes by before its call: the callbacks it runs, and what they and others look at. -/
  gap : Instant
  passes : ℕ
  late : Bool
  disabled : P → Bool

/-- `btn_wait_timeout_single1(1000)` -/
def Round.call (r : Round ι P) : Call := ⟨r.gap, 1000, r.passes⟩

/-- What the turn is given once the call has returned. -/
def Round.turn (r : Round ι P) (a : Answer) : Turn P := ⟨a.btn, r.late, r.disabled⟩

/-- All activations of `tui_menu_start_rot`. -/
structure Loops (ι : Type v) (P : Type u) where
  /-- The last answer that any of them has got. -/
  answer : Answer
  state : ι → State P

variable [DecidableEq ι] [DecidableEq P] (m : ι → MenuNodes P) (n : ℕ) (tr : Trace)

/-- One turn of one of them, if its call returns.  That of an activation that is over is a call
nobody's menu waits for. -/
def roundStep (s : Option (Loops ι P)) (r : Round ι P) : Option (Loops ι P) :=
  s.bind fun l ↦ (r.call.answer tr l.answer).map fun a ↦
    ⟨a, Function.update l.state r.who ((m r.who).step n (l.state r.who) (r.turn a))⟩

variable (now : Instant) (start : ι → State P) (rs : ℕ → Round ι P)

/-- All activations before round `k`. -/
def loops : ℕ → Option (Loops ι P) := Machine.trail (roundStep m n tr) (some ⟨⟨0, now⟩, start⟩) rs

/-- The calls they make. -/
def roundCalls : ℕ → Call := fun k ↦ (rs k).call

/-- Round `k` is not idle. -/
def Acts (k : ℕ) : Prop :=
  ∃ l l', loops m n tr now start rs k = some l ∧ loops m n tr now start rs (k + 1) = some l' ∧
    ¬ (m (rs k).who).Idle n (l.state (rs k).who) ((rs k).turn l'.answer)

/-- What is promised of the menus. -/
structure OneStep : Prop where
  /-- What is done is done on a press. -/
  press : ∀ k, Acts m n tr now start rs k →
    ∃ r b t, returned tr now (roundCalls rs) k = some r ∧ r.Pressed tr b t
  /-- As long as a button is held, at most one thing is done. -/
  once : ∀ b H, Hold (fun t ↦ (tr.pins t).down b) H → {k | Acts m n tr now start rs k ∧
    ∃ r, returned tr now (roundCalls rs) k = some r ∧ r.lastLook ∈ H}.Subsingleton

variable {m n tr now start rs}

/-- A turn without a button is idle. -/
theorem idle_of_btn {m : MenuNodes P} (s : State P) {t : Turn P} (h : t.btn = 0) :
    m.Idle n s t := by
  match s with
  | .running selected disabled =>
    rw [MenuNodes.Idle, MenuNodes.step, MenuNodes.confirmed, h]
    refine ⟨?_, by simp⟩
    split
    · exact .inr rfl
    · exact .inl (by simp)
  | .returned _ => exact ⟨.inl rfl, rfl⟩
  | .hung => exact ⟨.inl rfl, rfl⟩
  | .crashed => exact ⟨.inl rfl, rfl⟩

/-- The answers the activations get are those of the calls, one after the other. -/
theorem loops_answer (k : ℕ) :
    (loops m n tr now start rs k).map Loops.answer = answers tr now (roundCalls rs) k := by
  refine Machine.trail_map (f := Option.map Loops.answer) (g := Round.call) (fun s r ↦ ?_) _ rs k
  rw [roundStep, callStep]
  cases s with
  | none => rfl
  | some l =>
    rw [Option.bind_some, Option.map_some, Option.bind_some, Option.map_map]
    exact Option.map_id'

/-- **One press, one step.** -/
theorem oneStep : OneStep m n tr now start rs := by
  have hpress : ∀ k, Acts m n tr now start rs k → ∃ r b t,
      returned tr now (roundCalls rs) k = some r ∧ r.Pressed tr b t := by
    rintro k ⟨l, l', -, hl', hacts⟩
    have hr : returned tr now (roundCalls rs) k = some l'.answer := by
      rw [returned, ← loops_answer, hl', Option.map_some]
    have hne : l'.answer.btn ≠ 0 := fun hzero ↦ hacts (idle_of_btn _ hzero)
    obtain ⟨-, b, t, -, -, hpressed⟩ := exists_pressed hr hne
    exact ⟨_, b, t, hr, hpressed⟩
  refine ⟨hpress, fun b H hhold ↦ ((detects tr now (roundCalls rs)).once b H hhold).anti ?_⟩
  -- at a look at which `b` is down, no other button can be the only one
  rintro k ⟨hacts, r, hr, hmem⟩
  obtain ⟨r', c, t, hr', hpressed⟩ := hpress k hacts
  obtain rfl : r = r' := Option.some.inj (hr.symm.trans hr')
  have hdown := hhold.on _ hmem
  rw [hpressed.last] at hdown
  obtain rfl : b = c := (hpressed.only b).mp hdown
  exact ⟨r, hr, hpressed.btn, hmem⟩

/-- **Press detection.**  Whatever becomes of the buttons and the clock, whenever calls are made and
with whatever timeouts: a button that is returned has just come down on its own, and while it stays
down no other call returns it; so a press moves a selection or confirms an entry at most once. -/
theorem press_detection (tr : Trace) (now : Instant) (cs : ℕ → Call) (m : ι → MenuNodes P) (n : ℕ)
    (start : ι → State P) (rs : ℕ → Round ι P) :
    Detects tr now cs ∧ OneStep m n tr now start rs :=
  ⟨detects tr now cs, oneStep⟩

end

end Tui
end SdLoader

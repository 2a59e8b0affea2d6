import Iscp.Replay
import Mathlib.Data.Set.Finite.Lemmas
import Mathlib.Data.Set.Finite.List

/-!
# The rate limiter

`Allow` counts the calls of a key in windows. A window opens with a call, is open for a fixed time,
and a call after that opens the next one; in each at most a fixed number of calls is allowed.

What the limiter promises over any stretch of time follows from how the windows lie
(`Iscp.RateLimit.Window`): each opens after the one before it has closed. An interval as long as a
window therefore meets at most two of them, and twice the limit is the most it can hold
(`Iscp.RateLimit.length_meeting_le`); and of all the windows only one meets its own time
(`Iscp.RateLimit.length_within_le`). The calls a key is allowed in a run are those of such windows
(`Iscp.RateLimit.exists_windows`).

A key without a counter is told by the zero time. A window that closes at that very instant is taken
for no window at all, and then nothing is counted (`Iscp.RateLimit.allowed_without_limit`); in every
other run the limiter keeps its promises (`Iscp.RateLimit.limiter_bounds`).
-/

namespace Iscp

namespace RateLimit

open Go

/-! ### Windows -/

/-- **A window**: when it opened, and when calls were allowed in it. -/
structure Window where
  start : ℤ
  times : List ℤ

/-- **Windows one after the other**, each open for the same time and holding no more than the limit:
the first opens after the time given, each other one after the one before it has closed. -/
inductive Windows (limit : ℕ) (width : ℤ) : ℤ → List Window → Prop where
  | nil {after : ℤ} : Windows limit width after []
  | cons {after : ℤ} {w : Window} {ws : List Window} (hafter : after < w.start)
      (htimes : ∀ t ∈ w.times, w.start ≤ t ∧ t ≤ w.start + width) (hlimit : w.times.length ≤ limit)
      (hrest : Windows limit width (w.start + width) ws) : Windows limit width after (w :: ws)

/-- The times of all windows. -/
def timesOf (ws : List Window) : List ℤ := ws.flatMap Window.times

/-- The times from one to another. -/
def within (lo hi : ℤ) (ts : List ℤ) : List ℤ := ts.filter fun t => lo ≤ t ∧ t ≤ hi

variable {limit : ℕ} {width after lo hi : ℤ} {ws : List Window} {w : Window}

theorem within_append (ts ts' : List ℤ) :
    within lo hi (ts ++ ts') = within lo hi ts ++ within lo hi ts' := List.filter_append ..

theorem within_eq_nil {ts : List ℤ} (h : ∀ t ∈ ts, t < lo ∨ hi < t) : within lo hi ts = [] := by
  refine List.filter_eq_nil_iff.mpr fun t ht => ?_
  have := h t ht
  simp only [decide_eq_true_eq]
  omega

theorem length_within_le_length (ts : List ℤ) : (within lo hi ts).length ≤ ts.length :=
  List.length_filter_le ..

theorem Windows.within_eq_nil (hwidth : 0 ≤ width) (h : Windows limit width after ws)
    (hhi : hi ≤ after) : within lo hi (timesOf ws) = [] := by
  induction h with
  | nil => rfl
  | cons hafter htimes _ _ ih =>
    rw [timesOf, List.flatMap_cons, within_append, ← timesOf, ih (by omega), List.append_nil]
    refine RateLimit.within_eq_nil fun t ht => ?_
    have := htimes t ht
    omega

/-- **An interval as long as a window meets at most two of them.** -/
theorem length_meeting_le (hwidth : 0 ≤ width) (h : Windows limit width after ws) (lo : ℤ) :
    (within lo (lo + width) (timesOf ws)).length ≤ 2 * limit := by
  induction h with
  | nil => exact Nat.zero_le _
  | @cons after w ws hafter htimes hlimit hrest ih =>
    rw [timesOf, List.flatMap_cons, within_append, ← timesOf, List.length_append]
    by_cases hmeets : lo ≤ w.start + width
    · -- the next window opens in the interval or later, and the one after that when it is over
      have hfirst : (within lo (lo + width) w.times).length ≤ limit :=
        (length_within_le_length _).trans hlimit
      cases hrest with
      | nil =>
        have hnil : within lo (lo + width) (timesOf []) = [] := rfl
        rw [hnil, List.length_nil]
        omega
      | @cons _ v vs hafter' _ hlimit' hrest' =>
        have hsecond : (within lo (lo + width) v.times).length ≤ limit :=
          (length_within_le_length _).trans hlimit'
        rw [timesOf, List.flatMap_cons, within_append, ← timesOf,
          hrest'.within_eq_nil hwidth (by omega), List.append_nil]
        omega
    · have hnil : within lo (lo + width) w.times = [] := RateLimit.within_eq_nil fun t ht => by
        have := htimes t ht
        omega
      rw [hnil, List.length_nil, zero_add]
      exact ih

/-- **A window holds what was allowed while it was open.** -/
theorem length_within_le (hwidth : 0 ≤ width) (h : Windows limit width after ws) (hw : w ∈ ws) :
    (within w.start (w.start + width) (timesOf ws)).length ≤ limit := by
  -- windows open after the ones before them have closed
  have hlater : ∀ {after ws}, Windows limit width after ws → ∀ v ∈ ws, after < v.start := by
    intro after ws h
    induction h with
    | nil => simp
    | cons hafter _ _ _ ih =>
      rintro v (_ | ⟨_, hv⟩)
      · exact hafter
      · have := ih v hv
        omega
  induction h with
  | nil => cases hw
  | @cons after v ws hafter htimes hlimit hrest ih =>
    rw [timesOf, List.flatMap_cons, within_append, ← timesOf, List.length_append]
    rcases List.mem_cons.mp hw with rfl | hw
    · rw [hrest.within_eq_nil hwidth le_rfl, List.length_nil, add_zero]
      exact (length_within_le_length _).trans hlimit
    · have hnil : within w.start (w.start + width) v.times = [] :=
        RateLimit.within_eq_nil fun t ht => by
          have := htimes t ht
          have := hlater hrest w hw
          omega
      rw [hnil, List.length_nil, zero_add]
      exact ih hw

/-! ### The limiter -/

/-- A counter. -/
structure Counter where
  count : ℤ
  reset : Time

/-- **The limiter.** -/
structure Limiter where
  limit : ℤ
  window : Duration
  counters : Map Counter

/-- `New`. -/
def new (limit : ℤ) (window : Duration) : Limiter := ⟨limit, window, fun _ => none⟩

/-- `l.counters[key]`, a counter that is not there being the zero value. -/
def Limiter.counter (l : Limiter) (key : Str) : Counter := (l.counters key).getD ⟨0, Time.zero⟩

/-- A call that opens a window: there is no counter yet, or the clock has passed its reset. -/
def Limiter.renews (l : Limiter) (key : Str) (now : Time) : Bool :=
  (l.counter key).reset.unixNano = Time.zero.unixNano || now.after (l.counter key).reset

/-- **`Allow`.** -/
def Limiter.allow (l : Limiter) (key : Str) (now : Time) : Limiter × Bool :=
  let c := if l.renews key now then ⟨0, now.add l.window⟩ else l.counter key
  if c.count ≥ l.limit then ({ l with counters := l.counters.set key c }, false)
  else ({ l with counters := l.counters.set key { c with count := c.count + 1 } }, true)

/-- What came of a call. -/
structure Call where
  key : Str
  now : Time
  /-- Whether it opened a window. -/
  renewed : Bool
  allowed : Bool

/-- **The calls of a run**, one after the other. -/
def Limiter.run (l : Limiter) : List (Str × Time) → List Call
  | [] => []
  | (key, now) :: calls =>
    ⟨key, now, l.renews key now, (l.allow key now).2⟩ :: (l.allow key now).1.run calls

/-- The limiter after the calls of a run. -/
def Limiter.ran (l : Limiter) (calls : List (Str × Time)) : Limiter :=
  calls.foldl (fun l call => (l.allow call.1 call.2).1) l

variable {l l' : Limiter} {key key' : Str} {now : Time}

/-! ### One call -/

/-- The counter a call is counted with. -/
def Limiter.counting (l : Limiter) (key : Str) (now : Time) : Counter :=
  if l.renews key now then ⟨0, now.add l.window⟩ else l.counter key

theorem Limiter.allow_of_le (l : Limiter) (key : Str) (now : Time)
    (h : l.limit ≤ (l.counting key now).count) : l.allow key now =
    ({ l with counters := l.counters.set key (l.counting key now) }, false) := if_pos h

theorem Limiter.allow_of_lt (l : Limiter) (key : Str) (now : Time)
    (h : (l.counting key now).count < l.limit) : l.allow key now =
    ({ l with counters := l.counters.set key ⟨(l.counting key now).count + 1,
      (l.counting key now).reset⟩ }, true) := if_neg (not_le.mpr h)

/-- **A call leaves the limit, the window and the counters of other keys alone.** -/
theorem Limiter.allow_frame (l : Limiter) (key : Str) (now : Time) :
    (l.allow key now).1.limit = l.limit ∧ (l.allow key now).1.window = l.window ∧
      ∀ key' ≠ key, (l.allow key now).1.counters key' = l.counters key' := by
  rcases le_or_gt l.limit (l.counting key now).count with h | h
  · rw [allow_of_le l key now h]
    exact ⟨rfl, rfl, fun key' hne => Map.set_of_ne _ hne _⟩
  · rw [allow_of_lt l key now h]
    exact ⟨rfl, rfl, fun key' hne => Map.set_of_ne _ hne _⟩

theorem Limiter.allow_of_renews (hlimit : 0 < l.limit) (h : l.renews key now = true) :
    (l.allow key now).2 = true := by
  have hlt : (l.counting key now).count < l.limit := by rwa [counting, if_pos h]
  rw [allow_of_lt l key now hlt]

/-! ### One key -/

/-- Two limiters do the same for a key. -/
structure SameFor (key : Str) (l l' : Limiter) : Prop where
  limit : l.limit = l'.limit
  window : l.window = l'.window
  counter : l.counters key = l'.counters key

theorem SameFor.renews (h : SameFor key l l') (now : Time) :
    l.renews key now = l'.renews key now := by
  rw [Limiter.renews, Limiter.renews, Limiter.counter, Limiter.counter, h.counter]

theorem SameFor.counting (h : SameFor key l l') (now : Time) :
    l.counting key now = l'.counting key now := by
  rw [Limiter.counting, Limiter.counting, h.renews, h.window, Limiter.counter, Limiter.counter,
    h.counter]

theorem SameFor.allow (h : SameFor key l l') (now : Time) :
    (l.allow key now).2 = (l'.allow key now).2 ∧
      SameFor key (l.allow key now).1 (l'.allow key now).1 := by
  have hcounting := h.counting now
  rcases le_or_gt l.limit (l.counting key now).count with hle | hlt
  · have hle' : l'.limit ≤ (l'.counting key now).count := by rwa [← hcounting, ← h.limit]
    rw [Limiter.allow_of_le l key now hle, Limiter.allow_of_le l' key now hle', hcounting]
    exact ⟨rfl, h.limit, h.window, by simp⟩
  · have hlt' : (l'.counting key now).count < l'.limit := by rwa [← hcounting, ← h.limit]
    rw [Limiter.allow_of_lt l key now hlt, Limiter.allow_of_lt l' key now hlt', hcounting]
    exact ⟨rfl, h.limit, h.window, by simp⟩

/-- **The calls of a key do not depend on those of others.** -/
theorem run_filter (h : SameFor key l l') (calls : List (Str × Time)) :
    (l.run calls).filter (fun call => call.key = key) =
      l'.run (calls.filter fun call => call.1 = key) := by
  induction calls generalizing l l' with
  | nil => rfl
  | cons call calls ih =>
    obtain ⟨k, now⟩ := call
    by_cases hk : k = key
    · subst hk
      obtain ⟨hallow, hsame⟩ := h.allow now
      rw [List.filter_cons_of_pos (by simp), Limiter.run, Limiter.run,
        List.filter_cons_of_pos (by simp), ih hsame, h.renews, hallow]
    · obtain ⟨hlimit, hwindow, hcounters⟩ := l.allow_frame k now
      rw [List.filter_cons_of_neg (by simpa using hk), Limiter.run,
        List.filter_cons_of_neg (by simpa using hk)]
      exact ih ⟨hlimit.trans h.limit, hwindow.trans h.window,
        (hcounters key (Ne.symm hk)).trans h.counter⟩

/-! ### The windows of a run -/

/-- The times at which calls were allowed. -/
def allowedTimes (calls : List Call) : List ℤ :=
  (calls.filter Call.allowed).map fun call => call.now.unixNano

/-- The times at which windows were opened. -/
def renewedTimes (calls : List Call) : List ℤ :=
  (calls.filter Call.renewed).map fun call => call.now.unixNano

/-- **What is left of a run** in a window that is open already and holds some calls: the calls
allowed in it, and the windows after it. -/
def Continues (limit : ℕ) (width start : ℤ) (count : ℕ) (calls : List Call) : Prop :=
  ∃ ts ws, allowedTimes calls = ts ++ timesOf ws ∧ renewedTimes calls = ws.map Window.start ∧
    (∀ t ∈ ts, start ≤ t ∧ t ≤ start + width) ∧ count + ts.length ≤ limit ∧
    Windows limit width (start + width) ws

/-- **What a run is**, from a time on: windows. -/
def Divides (limit : ℕ) (width after : ℤ) (calls : List Call) : Prop :=
  ∃ ws, allowedTimes calls = timesOf ws ∧ renewedTimes calls = ws.map Window.start ∧
    Windows limit width after ws

variable {calls : List Call} {call : Call} {start : ℤ} {count : ℕ}

theorem Continues.divides (hwidth : 0 ≤ width) (hafter : after < call.now.unixNano)
    (hrenewed : call.renewed = true) (hallowed : call.allowed = decide (0 < limit))
    (h : Continues limit width call.now.unixNano (if 0 < limit then 1 else 0) calls) :
    Divides limit width after (call :: calls) := by
  obtain ⟨ts, ws, htimes, hstarts, hts, hcount, hws⟩ := h
  refine ⟨⟨call.now.unixNano, (if 0 < limit then [call.now.unixNano] else []) ++ ts⟩ :: ws,
    ?_, ?_, .cons hafter ?_ ?_ hws⟩
  · rw [timesOf, List.flatMap_cons, ← timesOf, List.append_assoc, ← htimes, allowedTimes,
      List.filter_cons, hallowed]
    by_cases hpos : 0 < limit
    · simp [hpos, allowedTimes]
    · simp [hpos, allowedTimes]
  · rw [renewedTimes, List.filter_cons_of_pos hrenewed, List.map_cons, List.map_cons, ← hstarts]
    rfl
  · intro t ht
    rcases List.mem_append.mp ht with ht | ht
    · split_ifs at ht
      · rw [List.mem_singleton.mp ht]
        exact ⟨le_rfl, le_add_of_nonneg_right hwidth⟩
      · cases ht
    · exact hts t ht
  · split_ifs at hcount ⊢
    · simpa [add_comm] using hcount
    · simpa using hcount

theorem Continues.allowed (hlow : start ≤ call.now.unixNano)
    (hhigh : call.now.unixNano ≤ start + width) (hrenewed : call.renewed = false)
    (hallowed : call.allowed = true) (h : Continues limit width start (count + 1) calls) :
    Continues limit width start count (call :: calls) := by
  obtain ⟨ts, ws, htimes, hstarts, hts, hcount, hws⟩ := h
  refine ⟨call.now.unixNano :: ts, ws, ?_, ?_, ?_, ?_, hws⟩
  · rw [allowedTimes, List.filter_cons_of_pos hallowed, List.map_cons, ← allowedTimes, htimes]
    rfl
  · rwa [renewedTimes, List.filter_cons_of_neg (by simp [hrenewed])]
  · rintro t (_ | ⟨_, ht⟩)
    · exact ⟨hlow, hhigh⟩
    · exact hts t ht
  · rw [List.length_cons]
    omega

theorem Continues.denied (hrenewed : call.renewed = false) (hallowed : call.allowed = false)
    (h : Continues limit width start count calls) :
    Continues limit width start count (call :: calls) := by
  obtain ⟨ts, ws, htimes, hstarts, hrest⟩ := h
  refine ⟨ts, ws, ?_, ?_, hrest⟩
  · rwa [allowedTimes, List.filter_cons_of_neg (by simp [hallowed])]
  · rwa [renewedTimes, List.filter_cons_of_neg (by simp [hrenewed])]

/-- **The clocks of a run**: they do not run backwards, and none is such that a window opened then
would close at the zero time. -/
structure Clocked (width : ℤ) (calls : List (Str × Time)) : Prop where
  sorted : calls.Pairwise fun call call' => call.2.unixNano ≤ call'.2.unixNano
  nonzero : ∀ call ∈ calls, call.2.unixNano + width ≠ Time.zero.unixNano

theorem Clocked.tail {call : Str × Time} {calls : List (Str × Time)}
    (h : Clocked width (call :: calls)) : Clocked width calls :=
  ⟨(List.pairwise_cons.mp h.sorted).2, fun c hc => h.nonzero c (List.mem_cons_of_mem _ hc)⟩

/-- **The limiter in a window**: the counter of the key has counted so many calls, and is reset when
the window closes. -/
structure Limiter.Open (l : Limiter) (limit : ℕ) (width : ℤ) (key : Str) (start : ℤ) (count : ℕ) :
    Prop where
  limit_eq : l.limit = limit
  window_eq : l.window = width
  counted : (l.counter key).count = count
  closes : (l.counter key).reset.unixNano = start + width
  nonzero : start + width ≠ Time.zero.unixNano
  bounded : count ≤ limit

theorem Limiter.counter_set (l : Limiter) (key : Str) (c : Counter) :
    Limiter.counter { l with counters := l.counters.set key c } key = c := by
  simp [counter]

/-- A call that renews the window opens one that starts at its own time. -/
theorem Limiter.open_of_renews (hlimit : l.limit = limit) (hwindow : l.window = width)
    (hnonzero : now.unixNano + width ≠ Time.zero.unixNano) (h : l.renews key now = true) :
    (l.allow key now).2 = decide (0 < limit) ∧
      (l.allow key now).1.Open limit width key now.unixNano (if 0 < limit then 1 else 0) := by
  have hcounting : l.counting key now = ⟨0, now.add width⟩ := by
    rw [counting, if_pos h, hwindow]
  by_cases hpos : 0 < limit
  · rw [allow_of_lt l key now (by rw [hcounting, hlimit]; exact Int.natCast_pos.mpr hpos),
      hcounting]
    refine ⟨(decide_eq_true hpos).symm, ⟨hlimit, hwindow, ?_, ?_, hnonzero, ?_⟩⟩
    · rw [counter_set, if_pos hpos]
      rfl
    · rw [counter_set]
      rfl
    · rw [if_pos hpos]
      exact hpos
  · rw [allow_of_le l key now (by rw [hcounting, hlimit]; dsimp only; omega), hcounting]
    refine ⟨(decide_eq_false hpos).symm, ⟨hlimit, hwindow, ?_, ?_, hnonzero, ?_⟩⟩
    · rw [counter_set, if_neg hpos]
      rfl
    · rw [counter_set]
      rfl
    · rw [if_neg hpos]
      exact Nat.zero_le _

/-- **The run from an open window on.** -/
theorem Limiter.Open.continues (hwidth : 0 ≤ width) (h : l.Open limit width key start count)
    {calls : List (Str × Time)} (hkey : ∀ call ∈ calls, call.1 = key)
    (hclocks : Clocked width calls) (hstart : ∀ call ∈ calls, start ≤ call.2.unixNano) :
    Continues limit width start count (l.run calls) := by
  induction calls generalizing l start count with
  | nil => exact ⟨[], [], rfl, rfl, by simp, by simpa using h.bounded, .nil⟩
  | cons call calls ih =>
    obtain ⟨k, now⟩ := call
    obtain rfl : k = key := hkey _ List.mem_cons_self
    have hkey' := fun c hc => hkey c (List.mem_cons_of_mem _ hc)
    have hlater : ∀ c ∈ calls, now.unixNano ≤ c.2.unixNano :=
      (List.pairwise_cons.mp hclocks.sorted).1
    have hnow : start ≤ now.unixNano := hstart _ List.mem_cons_self
    have hrenews : l.renews k now = decide (start + width < now.unixNano) := by
      rw [renews, h.closes, decide_eq_false h.nonzero, Bool.false_or, Time.after, h.closes]
    rw [run]
    by_cases hpast : start + width < now.unixNano
    · have hrenews' : l.renews k now = true := by rw [hrenews, decide_eq_true hpast]
      obtain ⟨hallowed, hopen⟩ := open_of_renews h.limit_eq h.window_eq
        (hclocks.nonzero _ List.mem_cons_self) hrenews'
      have hdivides : Divides limit width (start + width)
          (⟨k, now, l.renews k now, (l.allow k now).2⟩ :: (l.allow k now).1.run calls) :=
        Continues.divides hwidth hpast hrenews' hallowed (ih hopen hkey' hclocks.tail hlater)
      obtain ⟨ws, htimes, hstarts, hws⟩ := hdivides
      exact ⟨[], ws, htimes, hstarts, by simp, by simpa using h.bounded, hws⟩
    · have hrenews' : l.renews k now = false := by rw [hrenews, decide_eq_false hpast]
      have hcounting : l.counting k now = l.counter k := if_neg (by simp [hrenews'])
      have hstart' : ∀ c ∈ calls, start ≤ c.2.unixNano := fun c hc => hnow.trans (hlater c hc)
      rcases Nat.lt_or_ge count limit with hlt | hge
      · have hallow := allow_of_lt l k now
          (by rw [hcounting, h.counted, h.limit_eq]; exact Int.ofNat_lt.mpr hlt)
        rw [hcounting] at hallow
        refine .allowed hnow (not_lt.mp hpast) hrenews' (by rw [hallow]) (ih ?_ hkey' hclocks.tail
          hstart')
        rw [hallow]
        refine ⟨h.limit_eq, h.window_eq, ?_, ?_, h.nonzero, hlt⟩
        · rw [counter_set, h.counted]
          rfl
        · rw [counter_set, ← h.closes]
      · have hallow := allow_of_le l k now
          (by rw [hcounting, h.counted, h.limit_eq]; exact Int.ofNat_le.mpr hge)
        rw [hcounting] at hallow
        refine .denied hrenews' (by rw [hallow]) (ih ?_ hkey' hclocks.tail hstart')
        rw [hallow]
        refine ⟨h.limit_eq, h.window_eq, ?_, ?_, h.nonzero, h.bounded⟩
        · rw [counter_set, h.counted]
        · rw [counter_set, h.closes]

/-- **The calls of a key are those of windows.** -/
theorem exists_windows (hwidth : 0 ≤ width) {calls : List (Str × Time)}
    (hclocks : Clocked width calls) (hkey : ∀ call ∈ calls, call.1 = key) :
    ∃ after, Divides limit width after ((new limit width).run calls) := by
  cases calls with
  | nil => exact ⟨0, [], rfl, rfl, .nil⟩
  | cons call calls =>
    obtain ⟨k, now⟩ := call
    obtain rfl : k = key := hkey _ List.mem_cons_self
    have hrenews : (new limit width).renews k now = true := rfl
    obtain ⟨hallowed, hopen⟩ := Limiter.open_of_renews rfl rfl
      (hclocks.nonzero _ List.mem_cons_self) hrenews
    refine ⟨now.unixNano - 1, ?_⟩
    rw [Limiter.run]
    refine Continues.divides hwidth (Int.sub_one_lt_of_le le_rfl) hrenews hallowed
      (hopen.continues hwidth (fun c hc => hkey c (List.mem_cons_of_mem _ hc)) hclocks.tail
      (List.pairwise_cons.mp hclocks.sorted).1)

/-! ### What the limiter promises -/

/-- The calls of a key that were allowed. -/
def allowedCalls (key : Str) (calls : List Call) : List Call :=
  calls.filter fun call => call.key = key ∧ call.allowed

/-- The calls of a key that were allowed while a window was open. -/
def allowedWithin (key : Str) (start width : ℤ) (calls : List Call) : List Call :=
  (allowedCalls key calls).filter fun call =>
    start ≤ call.now.unixNano ∧ call.now.unixNano ≤ start + width

theorem map_allowedCalls (key : Str) (calls : List Call) :
    (allowedCalls key calls).map (fun call => call.now.unixNano) =
      allowedTimes (calls.filter fun call => call.key = key) := by
  rw [allowedCalls, allowedTimes, List.filter_filter]
  congr 2
  ext call
  simp [Bool.and_comm]

theorem length_allowedWithin (key : Str) (start width : ℤ) (calls : List Call) :
    (allowedWithin key start width calls).length = (within start (start + width)
      (allowedTimes (calls.filter fun call => call.key = key))).length := by
  rw [← map_allowedCalls, within, List.filter_map, List.length_map]
  rfl

/-- The calls within one width are at most twice the limit. -/
theorem length_le_of_span (hwidth : 0 ≤ width) (h : Windows limit width after ws) {sub : List Call}
    (hsub : (sub.map fun call => call.now.unixNano).Sublist (timesOf ws))
    (hspan : ∀ a ∈ sub, ∀ b ∈ sub, b.now.unixNano - a.now.unixNano ≤ width) :
    sub.length ≤ 2 * limit := by
  rcases sub.eq_nil_or_concat with rfl | ⟨init, last, hlast⟩
  · exact Nat.zero_le _
  · obtain ⟨a, ha, hmin⟩ := Set.exists_min_image {call | call ∈ sub}
      (fun call => call.now.unixNano) (List.finite_toSet sub) ⟨last, by simp [hlast]⟩
    -- from the earliest of the calls on, all of them are in the interval
    have hall : within a.now.unixNano (a.now.unixNano + width)
        (sub.map fun call => call.now.unixNano) = sub.map fun call => call.now.unixNano := by
      refine List.filter_eq_self.mpr fun t ht => ?_
      obtain ⟨b, hb, rfl⟩ := List.mem_map.mp ht
      have hlow := hmin b hb
      have hhigh := hspan a ha b hb
      simp only [decide_eq_true_eq]
      omega
    calc sub.length = (within a.now.unixNano (a.now.unixNano + width)
          (sub.map fun call => call.now.unixNano)).length := by rw [hall, List.length_map]
      _ ≤ (within a.now.unixNano (a.now.unixNano + width) (timesOf ws)).length :=
          (hsub.filter _).length_le
      _ ≤ 2 * limit := length_meeting_le hwidth h _

/-- **The bounds of the limiter**, for every run whose clocks do not run backwards and in which no
window would close at the zero time. Any calls of a key that were allowed, one more than twice the
limit, span more than a window; while a window is open no more than the limit are allowed; what
becomes of the calls of a key does not depend on other keys; and once the clock has passed the reset
of a counter, the next call is allowed unless the limit is zero. -/
theorem limiter_bounds {limit : ℕ} {width : Duration} (hwidth : 0 < width)
    {calls : List (Str × Time)} (hclocks : Clocked width calls) :
    (∀ (key : Str) (sub : List Call), sub.Sublist (allowedCalls key ((new limit width).run calls)) →
      sub.length = 2 * limit + 1 →
        ∃ a ∈ sub, ∃ b ∈ sub, width < b.now.unixNano - a.now.unixNano) ∧
    (∀ call ∈ (new limit width).run calls, call.renewed = true →
      (allowedWithin call.key call.now.unixNano width
        ((new limit width).run calls)).length ≤ limit) ∧
    (∀ key, ((new limit width).run calls).filter (fun call => call.key = key) =
      (new limit width).run (calls.filter fun call => call.1 = key)) ∧
    ∀ key now c, ((new limit width).ran calls).counters key = some c → c.reset.before now →
      0 < limit → (((new limit width).ran calls).allow key now).2 = true := by
  have hrun : ∀ key, ((new limit width).run calls).filter (fun call => call.key = key) =
      (new limit width).run (calls.filter fun call => call.1 = key) :=
    fun key => run_filter ⟨rfl, rfl, rfl⟩ calls
  have hdivides : ∀ key, ∃ after, Divides limit width after
      (((new limit width).run calls).filter fun call => call.key = key) := by
    intro key
    rw [hrun key]
    have hkey : ∀ call ∈ calls.filter (fun call => call.1 = key), call.1 = key := fun call hcall =>
      of_decide_eq_true (List.mem_filter.mp hcall).2
    refine exists_windows hwidth.le ⟨hclocks.sorted.filter _, fun call hcall => ?_⟩ hkey
    exact hclocks.nonzero call (List.mem_filter.mp hcall).1
  refine ⟨?_, ?_, hrun, ?_⟩
  · intro key sub hsub hlength
    obtain ⟨after, ws, htimes, -, hws⟩ := hdivides key
    by_contra hspan
    push Not at hspan
    have hmap := hsub.map fun call => call.now.unixNano
    rw [map_allowedCalls, htimes] at hmap
    have hle := length_le_of_span hwidth.le hws hmap hspan
    omega
  · intro call hcall hrenewed
    obtain ⟨after, ws, htimes, hstarts, hws⟩ := hdivides call.key
    have hmem : call.now.unixNano ∈ ws.map Window.start := by
      rw [← hstarts]
      refine List.mem_map_of_mem (List.mem_filter.mpr ⟨List.mem_filter.mpr ⟨hcall, ?_⟩, hrenewed⟩)
      simp
    obtain ⟨w, hw, hstart⟩ := List.mem_map.mp hmem
    rw [length_allowedWithin, htimes, ← hstart]
    exact length_within_le hwidth.le hws hw
  · intro key now c hc hpast hpos
    have hframe : ∀ (l : Limiter) calls, (l.ran calls).limit = l.limit := by
      intro l calls
      induction calls generalizing l with
      | nil => rfl
      | cons call calls ih => exact (ih _).trans (l.allow_frame call.1 call.2).1
    refine Limiter.allow_of_renews ?_ ?_
    · rw [hframe]
      exact Int.natCast_pos.mpr hpos
    · rw [Limiter.renews, Limiter.counter, hc, Bool.or_eq_true]
      exact .inr hpast

/-- A limit of one: of three calls in two windows, the second is not allowed. -/
theorem limiter_bounds_one : ∃ calls : List (Str × Time), Clocked minute calls ∧
    ((new 1 minute).run calls).map Call.allowed = [true, false, true] ∧
    ∀ call ∈ (new 1 minute).run calls, call.renewed = true →
      (allowedWithin call.key call.now.unixNano minute ((new 1 minute).run calls)).length ≤ 1 := by
  have hclocks : Clocked minute [(lit "a", ⟨0, 0⟩), (lit "a", ⟨minute, 0⟩),
      (lit "a", ⟨minute + 1, 0⟩)] := ⟨by decide, by decide⟩
  obtain ⟨-, hwithin, -⟩ := @limiter_bounds 1 minute (by decide) _ hclocks
  exact ⟨_, hclocks, by decide, hwithin⟩

/-- **Without a limit**: if a window closes at the zero time, every call opens it again. -/
theorem allowed_without_limit : ∃ calls : List (Str × Time),
    calls.Pairwise (fun call call' => call.2.unixNano ≤ call'.2.unixNano) ∧
    allowedCalls (lit "a") ((new 1 minute).run calls) = (new 1 minute).run calls ∧
    ((new 1 minute).run calls).length = 3 ∧
    ∀ call ∈ (new 1 minute).run calls, call.now.unixNano = Time.zero.unixNano - minute :=
  ⟨List.replicate 3 (lit "a", Time.zero.add (-minute)), by decide, by rfl, rfl, by decide⟩

end RateLimit

end Iscp

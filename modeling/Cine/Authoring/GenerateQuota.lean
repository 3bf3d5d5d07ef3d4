import Cine.Lib.OrderedMap
import Cine.Lib.SlidingWindow

/-!
# The quota of the calls of the model

`GenerateQuotaService` of `exam-authoring/generate-quota.service.ts`.

* `timesOf_prune`: the cleaning of the map leaves each teacher the calls in the
  window.
* `Tracks`: the map knows the calls that were let through as far as later calls
  ask for them.
* `burstRun_eq_judge`: the checks of a run are those of a limiter, and
  `burst_isTrueWindow` from it.
-/

namespace Cine.Authoring

open Cine.Lib

structure GenerateQuotaOptions where
  burstLimit : Nat
  burstWindowMs : Int
  dailyLimit : Nat
deriving DecidableEq, Repr

/-- `DEFAULT_GENERATE_QUOTA`. -/
def defaultGenerateQuota : GenerateQuotaOptions := ⟨20, 10 * 60000, 60⟩

/-- `attempts`: the times of the calls of each teacher. -/
abbrev Attempts := OrderedMap String (List Int)

/-- A call of `assertWithin`, with the clock and what `ai_usage` counts for the last 24 hours. -/
structure Call where
  teacherId : String
  now : Int
  used : Nat
deriving DecidableEq, Repr

/-- `TOO_MANY_REQUESTS`. -/
structure TooManyRequests where
  message : String
deriving DecidableEq, Repr

/-! ## The checks -/

/-- `Math.round(ms / 60_000)`. -/
def roundMinutes (ms : Int) : Int := (ms + 30000) / 60000

/-- `Math.ceil(ms / 60_000)`. -/
def ceilMinutes (ms : Int) : Int := -(-ms / 60000)

def burstMessage (options : GenerateQuotaOptions) (mine : List Int) (now : Int) : String :=
  let wait := match mine with
    | [] => "NaN"
    | first :: _ => toString (max 1 (ceilMinutes (first + options.burstWindowMs - now)))
  s!"Bạn đã gọi model {options.burstLimit} lượt (soạn đề, sinh gói test) trong " ++
    s!"{roundMinutes options.burstWindowMs} phút. Chờ khoảng {wait} phút rồi thử lại — " ++
    "mỗi lượt soạn đề hay sinh gói test là một lời gọi tới model tính tiền thật."

def pruneStep (floor : Int) (attempts : Attempts) (entry : String × List Int) : Attempts :=
  let alive := entry.2.filter (floor < ·)
  if alive = [] then attempts.erase entry.1 else attempts.set entry.1 alive

/-- The loop that cleans the map. -/
def prune (floor : Int) (attempts : Attempts) : Attempts :=
  attempts.entries.foldl (pruneStep floor) attempts

def timesOf (attempts : Attempts) (teacherId : String) : List Int :=
  (attempts.get? teacherId).getD []

def assertBurst (options : GenerateQuotaOptions) (attempts : Attempts) (call : Call) :
    Attempts × Except TooManyRequests Unit :=
  let attempts := prune (call.now - options.burstWindowMs) attempts
  let mine := timesOf attempts call.teacherId
  if options.burstLimit ≤ mine.length then
    (attempts, .error ⟨burstMessage options mine call.now⟩)
  else (attempts.set call.teacherId (mine ++ [call.now]), .ok ())

def assertDaily (options : GenerateQuotaOptions) (call : Call) : Except TooManyRequests Unit :=
  if options.dailyLimit ≤ call.used then
    .error ⟨s!"Bạn đã dùng hết {options.dailyLimit} lượt gọi model (soạn đề, sinh gói test) " ++
      "trong 24 giờ qua. Hạn mức này để một lỗi phía máy không đốt hết ngân sách gọi model; " ++
      "cần thêm thì báo quản trị viên."⟩
  else .ok ()

def assertWithin (options : GenerateQuotaOptions) (attempts : Attempts) (call : Call) :
    Attempts × Except TooManyRequests Unit :=
  let burst := assertBurst options attempts call
  (burst.1, burst.2.bind fun _ => assertDaily options call)

/-- Calls one after the other, each with whether the burst check lets it through. -/
def burstRun (options : GenerateQuotaOptions) : Attempts → List Call → List (Call × Bool)
  | _, [] => []
  | attempts, call :: calls =>
    (call, (assertBurst options attempts call).2.toBool) ::
      burstRun options (assertWithin options attempts call).1 calls

/-! ## The map -/

theorem timesOf_set (attempts : Attempts) (teacherId other : String) (times : List Int) :
    timesOf (attempts.set teacherId times) other =
      if other = teacherId then times else timesOf attempts other := by
  unfold timesOf
  rw [OrderedMap.get?_set]
  split_ifs <;> rfl

theorem timesOf_pruneStep (floor : Int) (attempts : Attempts) (entry : String × List Int)
    (teacherId : String) :
    timesOf (pruneStep floor attempts entry) teacherId =
      if teacherId = entry.1 then entry.2.filter (floor < ·) else timesOf attempts teacherId := by
  unfold pruneStep
  dsimp only
  split_ifs with hcold hsame hsame
  · rw [timesOf, OrderedMap.get?_erase, if_pos hsame, hcold]
    rfl
  · rw [timesOf, OrderedMap.get?_erase, if_neg hsame]
    rfl
  · rw [timesOf_set, if_pos hsame]
  · rw [timesOf_set, if_neg hsame]

theorem timesOf_foldl_pruneStep (floor : Int) {entries : List (String × List Int)}
    (hnodup : (entries.map Prod.fst).Nodup) (attempts : Attempts) (teacherId : String) :
    (∀ times, (teacherId, times) ∈ entries →
      timesOf (entries.foldl (pruneStep floor) attempts) teacherId =
        times.filter (floor < ·)) ∧
    (teacherId ∉ entries.map Prod.fst →
      timesOf (entries.foldl (pruneStep floor) attempts) teacherId =
        timesOf attempts teacherId) := by
  induction entries generalizing attempts with
  | nil => exact ⟨fun times h => absurd h List.not_mem_nil, fun _ => rfl⟩
  | cons entry entries ih =>
    rw [List.map_cons, List.nodup_cons] at hnodup
    obtain ⟨hin, hout⟩ := ih hnodup.2 (pruneStep floor attempts entry)
    rw [List.foldl_cons]
    constructor
    · intro times hmem
      cases List.mem_cons.1 hmem with
      | inl heq =>
        subst heq
        rw [hout hnodup.1, timesOf_pruneStep, if_pos rfl]
      | inr hrest => exact hin times hrest
    · intro hnone
      rw [List.map_cons, List.mem_cons, not_or] at hnone
      rw [hout hnone.2, timesOf_pruneStep, if_neg hnone.1]

theorem timesOf_prune (floor : Int) (attempts : Attempts) (teacherId : String) :
    timesOf (prune floor attempts) teacherId =
      (timesOf attempts teacherId).filter (floor < ·) := by
  obtain ⟨hin, hout⟩ := timesOf_foldl_pruneStep floor attempts.nodup attempts teacherId
  cases hget : attempts.get? teacherId with
  | some times =>
    rw [prune, hin times (OrderedMap.get?_eq_some_iff.1 hget), timesOf, hget]
    rfl
  | none =>
    have hnone : teacherId ∉ attempts.entries.map Prod.fst := by
      rw [← OrderedMap.isSome_get?_iff, hget]
      exact Bool.false_ne_true
    rw [prune, hout hnone, timesOf, hget]
    rfl

/-! ## The limiter -/

/-- The burst check as a limit in a window. -/
def GenerateQuotaOptions.burst (options : GenerateQuotaOptions) : Limiter Call String :=
  ⟨Call.teacherId, Call.now, options.burstLimit, options.burstWindowMs⟩

/-- The map has the calls of `admitted` that count for a call at `last` or later. -/
def Tracks (options : GenerateQuotaOptions) (attempts : Attempts) (admitted : List Call)
    (last : Int) : Prop :=
  ∀ now, last ≤ now → ∀ teacherId,
    (timesOf attempts teacherId).filter (now - options.burstWindowMs < ·) =
      ((options.burst.ofKey teacherId admitted).filter fun c =>
        now - options.burstWindowMs < c.now).map Call.now

variable {options : GenerateQuotaOptions} {attempts : Attempts} {admitted : List Call} {last : Int}
  {call : Call}

theorem tracks_empty : Tracks options OrderedMap.empty [] last := fun _ _ _ => rfl

theorem timesOf_prune_of_tracks (h : Tracks options attempts admitted last)
    (hlast : last ≤ call.now) :
    timesOf (prune (call.now - options.burstWindowMs) attempts) call.teacherId =
      (options.burst.recent admitted call).map Call.now := by
  rw [timesOf_prune]
  exact h call.now hlast call.teacherId

theorem toBool_assertBurst (h : Tracks options attempts admitted last) (hlast : last ≤ call.now) :
    (assertBurst options attempts call).2.toBool = options.burst.allows admitted call := by
  unfold assertBurst
  dsimp only
  rw [timesOf_prune_of_tracks h hlast, List.length_map, Limiter.allows]
  split_ifs with hfull
  · exact (decide_eq_false (Nat.not_lt.2 hfull)).symm
  · exact (decide_eq_true (Nat.lt_of_not_le hfull)).symm

theorem timesOf_assertBurst (options : GenerateQuotaOptions) (attempts : Attempts) (call : Call)
    (teacherId : String) :
    timesOf (assertBurst options attempts call).1 teacherId =
      (timesOf attempts teacherId).filter (call.now - options.burstWindowMs < ·) ++
        if teacherId = call.teacherId ∧ (assertBurst options attempts call).2.toBool = true then
          [call.now] else [] := by
  unfold assertBurst
  dsimp only
  split_ifs with hfull hadded hadded
  · exact absurd hadded.2 Bool.false_ne_true
  · rw [timesOf_prune, List.append_nil]
  · rw [timesOf_set, if_pos hadded.1, timesOf_prune, hadded.1]
  · have hother : teacherId ≠ call.teacherId := fun heq => hadded ⟨heq, rfl⟩
    rw [timesOf_set, if_neg hother, timesOf_prune, List.append_nil]

theorem tracks_assertBurst (h : Tracks options attempts admitted last) (hlast : last ≤ call.now) :
    Tracks options (assertBurst options attempts call).1 (options.burst.next admitted call)
      call.now := by
  intro now hnow teacherId
  rw [timesOf_assertBurst, toBool_assertBurst h hlast, List.filter_append, List.filter_filter]
  have hfilter : ((timesOf attempts teacherId).filter fun t =>
      decide (now - options.burstWindowMs < t) &&
        decide (call.now - options.burstWindowMs < t)) =
      ((options.burst.ofKey teacherId admitted).filter fun c =>
        now - options.burstWindowMs < c.now).map Call.now := by
    rw [← h now (Int.le_trans hlast hnow) teacherId]
    apply List.filter_congr
    intro t _
    rw [Bool.and_eq_left_iff_imp, decide_eq_true_iff, decide_eq_true_iff]
    omega
  rw [hfilter, Limiter.next]
  cases options.burst.allows admitted call with
  | false => simp
  | true =>
    by_cases hteacher : teacherId = call.teacherId
    · subst hteacher
      simp [Limiter.ofKey, GenerateQuotaOptions.burst, List.filter_cons, apply_ite]
    · have hkey : options.burst.key call ≠ teacherId := fun heq => hteacher heq.symm
      simp [Limiter.ofKey, hteacher, hkey]

theorem burstRun_eq_judge_of_tracks {calls : List Call} (hsorted : options.burst.Sorted calls)
    (h : Tracks options attempts admitted last) (hlast : ∀ c ∈ calls, last ≤ c.now) :
    burstRun options attempts calls = options.burst.judge admitted calls := by
  induction calls generalizing attempts admitted last with
  | nil => rfl
  | cons call calls ih =>
    have hnow := hlast call List.mem_cons_self
    unfold Limiter.Sorted at hsorted
    rw [List.pairwise_cons] at hsorted
    rw [burstRun, Limiter.judge, toBool_assertBurst h hnow]
    congr 1
    exact ih hsorted.2 (tracks_assertBurst h hnow) hsorted.1

theorem burstRun_eq_judge {calls : List Call} (hsorted : options.burst.Sorted calls) :
    burstRun options OrderedMap.empty calls = options.burst.judge [] calls := by
  cases calls with
  | nil => rfl
  | cons call calls =>
    apply burstRun_eq_judge_of_tracks hsorted (@tracks_empty options call.now)
    intro c hc
    cases List.mem_cons.1 hc with
    | inl heq => rw [heq]
    | inr hmem => exact (List.pairwise_cons.1 hsorted).1 c hmem

/-! ## A true window -/

/-- The calls of a teacher that a run lets through. -/
def admittedBy (run : List (Call × Bool)) (teacherId : String) : List Call :=
  (Limiter.admittedOf run).filter fun c => c.teacherId = teacherId

/-- The last `n` elements. -/
def latest (n : Nat) (calls : List Call) : List Call :=
  calls.drop (calls.length - n)

/-- What the checks `run` on any beginning of the calls have to do with the window. -/
structure TrueWindow (options : GenerateQuotaOptions) (run : List Call → List (Call × Bool))
    (calls : List Call) : Prop where
  openRight : ∀ teacherId start, ((admittedBy (run calls) teacherId).filter fun c =>
    start ≤ c.now ∧ c.now < start + options.burstWindowMs).length ≤ options.burstLimit
  openLeft : ∀ teacherId start, ((admittedBy (run calls) teacherId).filter fun c =>
    start < c.now ∧ c.now ≤ start + options.burstWindowMs).length ≤ options.burstLimit
  refused : ∀ before call after, calls = before ++ call :: after →
    ((run calls)[before.length]? = some (call, false) ↔
      options.burstLimit ≤ (admittedBy (run before) call.teacherId).length ∧
        ∀ c ∈ latest options.burstLimit (admittedBy (run before) call.teacherId),
          call.now - options.burstWindowMs < c.now ∧ c.now ≤ call.now)
  uncounted : ∀ before call after, calls = before ++ call :: after →
    (run calls)[before.length]? = some (call, false) →
      run (before ++ after) = (run calls).eraseIdx before.length
  others : ∀ teacherId, ((run calls).filter fun p => p.1.teacherId = teacherId) =
    run (calls.filter fun c => c.teacherId = teacherId)

theorem le_of_mem_admitted {before after : List Call}
    (hsorted : options.burst.Sorted (before ++ call :: after)) {c : Call}
    (hc : c ∈ Limiter.admittedOf (options.burst.judge [] before)) : c.now ≤ call.now :=
  (List.pairwise_append.1 hsorted).2.2 c ((Limiter.admittedOf_judge_sublist [] before).subset hc)
    call List.mem_cons_self

/-- The burst quota is a sliding window of each teacher. -/
theorem burst_isTrueWindow (options : GenerateQuotaOptions) (calls : List Call)
    (hsorted : calls.Pairwise fun a b => a.now ≤ b.now) :
    TrueWindow options (burstRun options OrderedMap.empty) calls := by
  have hrun : ∀ l, l.Sublist calls →
      burstRun options OrderedMap.empty l = options.burst.judge [] l :=
    fun l hl => burstRun_eq_judge (hsorted.sublist hl)
  have hrunCalls := hrun calls (List.Sublist.refl _)
  have hanswer : ∀ before call after, calls = before ++ call :: after →
      (burstRun options OrderedMap.empty calls)[before.length]? =
        some (call, options.burst.allows
          (Limiter.admittedOf (options.burst.judge [] before)) call) := by
    intro before call after heq
    rw [hrunCalls, heq]
    exact Limiter.getElem?_judge before after call
  constructor
  · intro teacherId start
    rw [hrunCalls]
    apply Limiter.admitted_within (L := options.burst)
      (fun t => decide (start ≤ t ∧ t < start + options.burstWindowMs))
    intro s t hs ht
    rw [decide_eq_true_iff] at hs ht
    show t - s < options.burstWindowMs
    omega
  · intro teacherId start
    rw [hrunCalls]
    apply Limiter.admitted_within (L := options.burst)
      (fun t => decide (start < t ∧ t ≤ start + options.burstWindowMs))
    intro s t hs ht
    rw [decide_eq_true_iff] at hs ht
    show t - s < options.burstWindowMs
    omega
  · intro before call after heq
    have hbefore : before.Sublist calls := heq ▸ List.sublist_append_left _ _
    have hadmitted : options.burst.Sorted (Limiter.admittedOf (options.burst.judge [] before)) :=
      (hsorted.sublist hbefore).sublist (Limiter.admittedOf_judge_sublist [] before)
    rw [hanswer before call after heq, hrun before hbefore, Option.some.injEq, Prod.mk.injEq,
      eq_self_iff_true, true_and, Limiter.refused_iff hadmitted]
    refine and_congr_right fun _ => forall₂_congr fun c hc => ?_
    have hle : c.now ≤ call.now :=
      le_of_mem_admitted (heq ▸ hsorted) (List.mem_of_mem_filter (List.mem_of_mem_drop hc))
    exact (and_iff_left hle).symm
  · intro before call after heq hrefused
    rw [hanswer before call after heq] at hrefused
    have hallows := (Prod.mk.inj (Option.some.inj hrefused)).2
    have hskip : (before ++ after).Sublist calls :=
      heq ▸ (List.sublist_cons_self call after).append_left before
    rw [hrun _ hskip, hrunCalls, heq]
    exact Limiter.judge_without_refused hallows
  · intro teacherId
    rw [hrun _ List.filter_sublist, hrunCalls]
    exact Limiter.judge_of_key (L := options.burst) teacherId [] calls

/-- Two calls in ten milliseconds; the last one comes when the first is at the edge. -/
theorem burst_isTrueWindow_once :
    (burstRun ⟨2, 10, 60⟩ OrderedMap.empty
      [⟨"a", 0, 0⟩, ⟨"a", 5, 0⟩, ⟨"b", 5, 0⟩, ⟨"a", 9, 0⟩, ⟨"a", 10, 0⟩]).map Prod.snd =
        [true, true, true, false, true] ∧
    TrueWindow ⟨2, 10, 60⟩ (burstRun ⟨2, 10, 60⟩ OrderedMap.empty)
      [⟨"a", 0, 0⟩, ⟨"a", 5, 0⟩, ⟨"b", 5, 0⟩, ⟨"a", 9, 0⟩, ⟨"a", 10, 0⟩] :=
  ⟨by decide, burst_isTrueWindow ⟨2, 10, 60⟩ _ (by decide)⟩

end Cine.Authoring

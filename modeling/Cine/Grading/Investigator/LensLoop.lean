import Cine.Grading.Investigator.LensProtocol
import Cine.Grading.Investigator.PoolAccounts

/-!
# The loop of a lens

`grading/investigator/lens-loop.ts`.  The four lenses share the loop: it asks
the models, runs the calls of a reply, and ends with a conclusion or with the
reason why there is none.

The models, the tools and the clock are functions of a world, which may be
anything: a statement about every world is one about every sequence of
replies, outcomes and times.  The messages only go to the models, and the
tokens only into the account of the phase; these are left out.

`LensRun.asked` is a history that the code does not keep: the calls to the
models, one list for each request.

`runLensLoop_sound` is the result: a run ends, its requests and its tool calls
are within the budget, and its conclusion is the one that was read.
-/

namespace Cine.Grading

open Cine.Lib

/-! ## The budget, the surroundings and the end -/

/-- `LENS_BUDGET`. -/
def lensBudget : InvestigationBudget where
  maxToolCalls := 8
  maxWallMs := 300000
  maxTokens := 30000
  maxRounds := 6

/-- `LensDeps`, with the clock and the tools. -/
structure LensDeps (W : Type) extends PoolDeps Unit W where
  /-- The time, and the world at the next step. -/
  now : W → Int × W
  execute : String → CallArgs → W → ToolOutcome × W

/-- `LensEnd`, but for `final`. -/
inductive LensFailure
  | maxRounds
  | maxWall
  | maxToolCalls
  | modelsExhausted
  | deadline
deriving DecidableEq, Repr

def describeEnd (ending : LensFailure) (detail : Option String) : String :=
  let base := match ending with
    | .modelsExhausted => "hết bậc model (" ++ detail.getD "không rõ lý do" ++ ")"
    | .deadline => "hết giờ (300s) khi đang chờ model trả lời"
    | .maxWall => "hết giờ (300s) mà chưa kết luận"
    | .maxRounds => "hết 6 lượt mà chưa kết luận"
    | .maxToolCalls => "hết 8 lời gọi công cụ mà chưa kết luận"
  match detail with
  | some detail =>
    if ending ≠ .modelsExhausted ∧ detail ≠ "" then base ++ " — " ++ detail else base
  | none => base

structure LensRunResult (C : Type) where
  conclusion : Option C
  toolCalls : List ToolCall
  /-- `none` where the source has `final`. -/
  ending : Option LensFailure
  failure : Option String

/-- The variables of `runLensLoop`, with the tiers that its pool has excluded. -/
structure LensRun (W : Type) where
  world : W
  excluded : List String
  guard : DuplicateGuard
  toolCalls : List ToolCall
  rounds : Nat
  asked : List (List (Attempt Unit))

/-- Why the loop is left. -/
inductive LensStop (C : Type)
  | done (conclusion : C)
  /-- A budget is used up. -/
  | limit (reason : LensFailure)
  /-- There was no reply. -/
  | failed (ending : LensFailure) (detail : Option String)

/-! ## The loop -/

namespace LensRun

def new {W : Type} (world : W) : LensRun W where
  world := world
  excluded := []
  guard := .new
  toolCalls := []
  rounds := 0
  asked := []

variable {W C : Type} (deps : LensDeps W) (parse : String → Option (LensReply C))
  (started : Int) (label : String)

/-- What a request asks of the pool. -/
def askInput : AskInput Unit W (LensReply C) where
  request := { fields := (), timeoutMs := some 60000 }
  parse := parse
  deadline := some (started + lensBudget.maxWallMs)
  now := fun w => (deps.now w).1

/-- `ask`: how the pool ends, with its reasons, and the variables. -/
def ask (s : LensRun W) : Option (AskEnd (LensReply C) × List String × LensRun W) :=
  (deps.toPoolDeps.ask (askInput deps parse started) s.excluded s.world).map fun (e, a) =>
    (e, a.reasons,
      { s with world := a.world, excluded := a.excluded, asked := s.asked ++ [a.attempts] })

/-- One call of a reply: not run where the guard blocks it, and recorded in
any case. -/
def oneCall (s : LensRun W) (call : ModelCall) : LensRun W :=
  let id := label ++ "-tc-" ++ toString (s.toolCalls.length + 1)
  let args := lensArgsFor call
  let record (status : ToolCallStatus) (structuredRef : Option String) : ToolCall :=
    { id, tool := call.tool, args := args.toArgs, status, structuredRef }
  let (admitted, guard) := s.guard.admit call.tool args
  if admitted then
    let (out, world) := deps.execute id args s.world
    { s with
      guard
      world
      toolCalls := s.toolCalls ++ [record out.status (out.structured.map fun _ => id)] }
  else { s with guard, toolCalls := s.toolCalls ++ [record .blockedDuplicate none] }

/-- The loop over the calls of one reply. -/
def runCalls : List ModelCall → LensRun W → LensRun W
  | [], s => s
  | call :: calls, s =>
    if lensBudget.maxToolCalls ≤ s.toolCalls.length then s
    else runCalls calls (s.oneCall deps label call)

/-- The turn from a request on. -/
def onAsked : AskEnd (LensReply C) × List String × LensRun W → Option (LensStop C) × LensRun W
  | (.modelsExhausted, reasons, s) =>
    (some (.failed .modelsExhausted (some (String.intercalate "; " reasons))), s)
  | (.deadlineExceeded, _, s) => (some (.failed .deadline none), s)
  | (.reply (.final conclusion) _, _, s) =>
    (some (.done conclusion), { s with rounds := s.rounds + 1 })
  | (.reply (.call calls) _, _, s) =>
    (none, ({ s with rounds := s.rounds + 1 } : LensRun W).runCalls deps label calls)

/-- One turn of the loop: nothing where it goes on. -/
def turn (s : LensRun W) : Option (Option (LensStop C) × LensRun W) :=
  if lensBudget.maxRounds ≤ s.rounds then some (some (.limit .maxRounds), s)
  else
    let (time, world) := deps.now s.world
    let s := { s with world }
    if lensBudget.maxWallMs ≤ time - started then some (some (.limit .maxWall), s)
    else if lensBudget.maxToolCalls ≤ s.toolCalls.length then
      some (some (.limit .maxToolCalls), s)
    else (s.ask deps parse started).map (onAsked deps label)

/-- The loop, `fuel` turns of it. -/
def loop : Nat → LensRun W → Option (LensStop C × LensRun W)
  | 0, _ => none
  | fuel + 1, s =>
    match s.turn deps parse started label with
    | none => none
    | some (none, s) => loop fuel s
    | some (some stop, s) => some (stop, s)

/-! ## The end of a run -/

variable (C) in
/-- `failed`. -/
def noConclusion (ending : LensFailure) (detail : Option String) (s : LensRun W) :
    LensRunResult C :=
  { conclusion := none
    toolCalls := s.toolCalls
    ending := some ending
    failure := some (describeEnd ending detail) }

/-- `done`. -/
def concluded (conclusion : C) (s : LensRun W) : LensRunResult C :=
  { conclusion := some conclusion, toolCalls := s.toolCalls, ending := none, failure := none }

/-- The end of the last request. -/
def onForced (reason : LensFailure) :
    AskEnd (LensReply C) × List String × LensRun W → LensRunResult C × LensRun W
  | (.reply (.final conclusion) _, _, s) => (s.concluded conclusion, s)
  | (.reply (.call _) _, _, s) =>
    (s.noConclusion C reason (some "lượt ép kết luận vẫn chỉ xin gọi thêm công cụ"), s)
  | (.modelsExhausted, reasons, s) =>
    (s.noConclusion C reason
      (some ("lượt ép kết luận: hết bậc model (" ++ String.intercalate "; " reasons ++ ")")), s)
  | (.deadlineExceeded, _, s) =>
    (s.noConclusion C reason (some "lượt ép kết luận cũng không có phản hồi dùng được"), s)

/-- What `runLensLoop` does behind the loop.  A last request is made where
rounds or calls ran out and some call succeeded. -/
def finish : LensStop C → LensRun W → Option (LensRunResult C × LensRun W)
  | .done conclusion, s => some (s.concluded conclusion, s)
  | .failed ending detail, s => some (s.noConclusion C ending detail, s)
  | .limit reason, s =>
    if (reason = .maxRounds ∨ reason = .maxToolCalls) ∧
        s.toolCalls.any fun t => t.status = .ok then
      (s.ask deps parse started).map (onForced reason)
    else some (s.noConclusion C reason none, s)

end LensRun

/-- `runLensLoop`, with the variables at its end.  A turn more than there are
rounds is enough. -/
def runLensLoop {W C : Type} (deps : LensDeps W) (label : String)
    (parse : String → Option (LensReply C)) (world : W) :
    Option (LensRunResult C × LensRun W) :=
  let (started, world) := deps.now world
  ((LensRun.new world).loop deps parse started label (lensBudget.maxRounds + 1)).bind
    fun (stop, s) => s.finish deps parse started stop

/-! ## What every run keeps to -/

/-- A final reply with the conclusion was read. -/
def ReadsFinal {C : Type} (parse : String → Option (LensReply C))
    (asked : List (List (Attempt Unit))) (conclusion : C) : Prop :=
  ∃ attempts ∈ asked, ∃ a ∈ attempts, a.read parse = some (.final conclusion)

namespace LensRun

section Invariant

variable {W C : Type} {deps : LensDeps W} {parse : String → Option (LensReply C)}
  {started : Int} {label : String} {s : LensRun W}

theorem readsFinal_concat {asked : List (List (Attempt Unit))} {attempts : List (Attempt Unit)}
    {c : C} : ReadsFinal parse (asked ++ [attempts]) c ↔
      ReadsFinal parse asked c ∨ ∃ a ∈ attempts, a.read parse = some (.final c) := by
  constructor
  · rintro ⟨l, hl, hread⟩
    rcases List.mem_append.1 hl with hl | hl
    · exact Or.inl ⟨l, hl, hread⟩
    · obtain rfl := List.mem_singleton.1 hl
      exact Or.inr hread
  · rintro (⟨l, hl, hread⟩ | hread)
    · exact ⟨l, List.mem_append_left _ hl, hread⟩
    · exact ⟨attempts, List.mem_append_right _ (List.mem_singleton_self _), hread⟩

theorem ask_spec (deps : LensDeps W) (parse : String → Option (LensReply C)) (started : Int)
    (s : LensRun W) :
    ∃ e reasons s' attempts, s.ask deps parse started = some (e, reasons, s') ∧
      s'.rounds = s.rounds ∧ s'.toolCalls = s.toolCalls ∧ s'.asked = s.asked ++ [attempts] ∧
      ∀ v, (∃ a ∈ attempts, a.read parse = some v) ↔ ∃ model, e = .reply v model := by
  obtain ⟨e, a, hask, hreads⟩ :=
    ask_reads deps.toPoolDeps (askInput deps parse started) s.excluded s.world
  exact ⟨e, a.reasons, _, a.attempts, congrArg (Option.map _) hask, rfl, rfl, rfl, hreads⟩

theorem oneCall_spec (deps : LensDeps W) (label : String) (s : LensRun W) (call : ModelCall) :
    (s.oneCall deps label call).toolCalls.length = s.toolCalls.length + 1 ∧
      (s.oneCall deps label call).rounds = s.rounds ∧
      (s.oneCall deps label call).asked = s.asked := by
  unfold oneCall
  dsimp only
  split_ifs
  · exact ⟨List.length_append, rfl, rfl⟩
  · exact ⟨List.length_append, rfl, rfl⟩

theorem runCalls_spec (deps : LensDeps W) (label : String) (calls : List ModelCall)
    (s : LensRun W) (h : s.toolCalls.length ≤ lensBudget.maxToolCalls) :
    (s.runCalls deps label calls).toolCalls.length ≤ lensBudget.maxToolCalls ∧
      (s.runCalls deps label calls).rounds = s.rounds ∧
      (s.runCalls deps label calls).asked = s.asked := by
  induction calls generalizing s with
  | nil => exact ⟨h, rfl, rfl⟩
  | cons call calls ih =>
    unfold runCalls
    by_cases hfull : lensBudget.maxToolCalls ≤ s.toolCalls.length
    · rw [if_pos hfull]
      exact ⟨h, rfl, rfl⟩
    · rw [if_neg hfull]
      obtain ⟨hlength, hrounds, hasked⟩ := oneCall_spec deps label s call
      obtain ⟨hcalls, hrounds', hasked'⟩ := ih (s.oneCall deps label call) (by omega)
      exact ⟨hcalls, hrounds'.trans hrounds, hasked'.trans hasked⟩

/-- The loop goes on: each round was one request, and no conclusion was read. -/
structure Open (parse : String → Option (LensReply C)) (s : LensRun W) : Prop where
  toolCalls : s.toolCalls.length ≤ lensBudget.maxToolCalls
  rounds : s.rounds ≤ lensBudget.maxRounds
  asked : s.asked.length = s.rounds
  unread : ∀ c, ¬ ReadsFinal parse s.asked c

/-- The loop is left with the conclusion that was read, if there is one. -/
structure Left (parse : String → Option (LensReply C)) (stop : LensStop C) (s : LensRun W) :
    Prop where
  toolCalls : s.toolCalls.length ≤ lensBudget.maxToolCalls
  asked : s.asked.length ≤ lensBudget.maxRounds
  reads : ∀ c, ReadsFinal parse s.asked c ↔ stop = .done c

theorem open_new (parse : String → Option (LensReply C)) (world : W) : Open parse (.new world) where
  toolCalls := Nat.zero_le _
  rounds := Nat.zero_le _
  asked := rfl
  unread := fun _ ⟨_, hl, _⟩ => List.not_mem_nil hl

def Turned (parse : String → Option (LensReply C)) (s s' : LensRun W) :
    Option (LensStop C) → Prop
  | none => Open parse s' ∧ s'.rounds = s.rounds + 1
  | some stop => Left parse stop s'

theorem Open.limit (h : Open parse s) (s' : LensRun W) (hcalls : s'.toolCalls = s.toolCalls)
    (hasked : s'.asked = s.asked) (reason : LensFailure) :
    Turned parse s s' (some (.limit reason)) where
  toolCalls := hcalls ▸ h.toolCalls
  asked := by
    rw [hasked, h.asked]
    exact h.rounds
  reads := fun c => by
    rw [hasked]
    exact ⟨fun hread => absurd hread (h.unread c), fun heq => (nomatch heq)⟩

theorem Open.onAsked (h : Open parse s) (hroom : s.rounds < lensBudget.maxRounds)
    {e : AskEnd (LensReply C)} {reasons : List String} {s' : LensRun W}
    {attempts : List (Attempt Unit)} (hrounds : s'.rounds = s.rounds)
    (hcalls : s'.toolCalls = s.toolCalls) (hasked : s'.asked = s.asked ++ [attempts])
    (hreads : ∀ v, (∃ a ∈ attempts, a.read parse = some v) ↔ ∃ model, e = .reply v model) :
    Turned parse s (LensRun.onAsked deps label (e, reasons, s')).2
      (LensRun.onAsked deps label (e, reasons, s')).1 := by
  have hlength : s'.asked.length = s.rounds + 1 := by
    rw [hasked, List.length_append, h.asked]
    rfl
  have hbound : s'.asked.length ≤ lensBudget.maxRounds := by omega
  have hroom' : s'.toolCalls.length ≤ lensBudget.maxToolCalls := hcalls ▸ h.toolCalls
  have hread : ∀ c, ReadsFinal parse s'.asked c ↔ ∃ model, e = .reply (.final c) model := by
    intro c
    rw [hasked, readsFinal_concat, hreads]
    exact or_iff_right (h.unread c)
  cases e with
  | reply value model =>
    cases value with
    | final conclusion =>
      refine ⟨hroom', hbound, fun c => (hread c).trans ⟨?_, ?_⟩⟩
      · rintro ⟨_, heq⟩
        cases heq
        rfl
      · intro heq
        cases heq
        exact ⟨model, rfl⟩
    | call calls =>
      obtain ⟨hcalls', hrounds', hasked'⟩ := runCalls_spec deps label calls
        { s' with rounds := s'.rounds + 1 } hroom'
      have hturned : (({ s' with rounds := s'.rounds + 1 } : LensRun W).runCalls deps label
          calls).rounds = s.rounds + 1 := hrounds'.trans (congrArg (· + 1) hrounds)
      refine ⟨⟨hcalls', hturned ▸ hroom, ?_, fun c hc => ?_⟩, hturned⟩
      · show _ = (({ s' with rounds := s'.rounds + 1 } : LensRun W).runCalls deps label
          calls).rounds
        rw [hturned]
        exact (congrArg List.length hasked').trans hlength
      · obtain ⟨_, heq⟩ := (hread c).1 (hasked' ▸ hc)
        cases heq
  | deadlineExceeded =>
    refine ⟨hroom', hbound, fun c => (hread c).trans ⟨?_, fun heq => (nomatch heq)⟩⟩
    rintro ⟨_, heq⟩
    cases heq
  | modelsExhausted =>
    refine ⟨hroom', hbound, fun c => (hread c).trans ⟨?_, fun heq => (nomatch heq)⟩⟩
    rintro ⟨_, heq⟩
    cases heq

variable (deps started label)

theorem Open.turn (h : Open parse s) :
    ∃ stop s', s.turn deps parse started label = some (stop, s') ∧ Turned parse s s' stop := by
  unfold LensRun.turn
  by_cases hrounds : lensBudget.maxRounds ≤ s.rounds
  · rw [if_pos hrounds]
    exact ⟨_, _, rfl, h.limit s rfl rfl _⟩
  rw [if_neg hrounds]
  dsimp only
  split_ifs with hwall hcalls
  · exact ⟨_, _, rfl, h.limit { s with world := (deps.now s.world).2 } rfl rfl _⟩
  · exact ⟨_, _, rfl, h.limit { s with world := (deps.now s.world).2 } rfl rfl _⟩
  · obtain ⟨e, reasons, s', attempts, hask, hrounds', hcalls', hasked, hreads⟩ :=
      ask_spec deps parse started { s with world := (deps.now s.world).2 }
    rw [hask]
    exact ⟨_, _, rfl, h.onAsked (not_le.1 hrounds) hrounds' hcalls' hasked hreads⟩

theorem Open.loop (h : Open parse s) {fuel : Nat} (hfuel : lensBudget.maxRounds < s.rounds + fuel) :
    ∃ stop s', s.loop deps parse started label fuel = some (stop, s') ∧ Left parse stop s' := by
  induction fuel generalizing s with
  | zero =>
    have := h.rounds
    omega
  | succ fuel ih =>
    obtain ⟨stop, s', hturn, hturned⟩ := h.turn deps started label
    unfold LensRun.loop
    rw [hturn]
    cases stop with
    | none =>
      obtain ⟨hopen, hrounds⟩ := hturned
      exact ih hopen (by omega)
    | some stop => exact ⟨stop, s', rfl, hturned⟩

end Invariant

end LensRun

/-- What holds of a run that has ended with the result `r`. -/
structure LensRunSound {W C : Type} (parse : String → Option (LensReply C)) (r : LensRunResult C)
    (s : LensRun W) : Prop where
  toolCalls : r.toolCalls = s.toolCalls
  calls : s.toolCalls.length ≤ lensBudget.maxToolCalls
  requests : s.asked.length ≤ lensBudget.maxRounds + 1
  concluded : ∀ c, r.conclusion = some c ↔ ReadsFinal parse s.asked c

namespace LensRun

variable {W C : Type} (deps : LensDeps W) {parse : String → Option (LensReply C)}
  (started : Int) {s : LensRun W}

theorem Left.finish {stop : LensStop C} (h : Left parse stop s) :
    ∃ r s', s.finish deps parse started stop = some (r, s') ∧ LensRunSound parse r s' := by
  have hasked := h.asked
  have hunread : (∀ c, stop ≠ .done c) → ∀ c, none = some c ↔ ReadsFinal parse s.asked c :=
    fun hstop c => ⟨fun heq => (nomatch heq), fun hread => absurd ((h.reads c).1 hread) (hstop c)⟩
  cases stop with
  | done conclusion =>
    refine ⟨_, s, rfl, rfl, h.toolCalls, by omega, fun c => ?_⟩
    rw [h.reads]
    exact ⟨fun heq => congrArg LensStop.done (Option.some.inj heq),
      fun heq => congrArg some (LensStop.done.inj heq)⟩
  | failed ending detail =>
    exact ⟨_, s, rfl, rfl, h.toolCalls, by omega, hunread fun _ heq => (nomatch heq)⟩
  | limit reason =>
    unfold LensRun.finish
    dsimp only
    split_ifs
    · obtain ⟨e, reasons, s', attempts, hask, hrounds, hcalls, hasked', hreads⟩ :=
        ask_spec deps parse started s
      have hcalls' : s'.toolCalls.length ≤ lensBudget.maxToolCalls := hcalls ▸ h.toolCalls
      have hlength : s'.asked.length ≤ lensBudget.maxRounds + 1 := by
        rw [hasked', List.length_append, List.length_singleton]
        omega
      have hread : ∀ c, ReadsFinal parse s'.asked c ↔ ∃ model, e = .reply (.final c) model := by
        intro c
        rw [hasked', readsFinal_concat, hreads, h.reads]
        exact or_iff_right fun heq => (nomatch heq)
      rw [hask]
      refine ⟨_, _, rfl, ?_⟩
      cases e with
      | reply value model =>
        cases value with
        | final conclusion =>
          refine ⟨rfl, hcalls', hlength, fun c => (Iff.trans ?_ (hread c).symm)⟩
          constructor
          · intro heq
            cases heq
            exact ⟨model, rfl⟩
          · rintro ⟨_, heq⟩
            cases heq
            rfl
        | call calls =>
          refine ⟨rfl, hcalls', hlength, fun c => ⟨fun heq => (nomatch heq), fun hc => ?_⟩⟩
          obtain ⟨_, heq⟩ := (hread c).1 hc
          cases heq
      | deadlineExceeded =>
        refine ⟨rfl, hcalls', hlength, fun c => ⟨fun heq => (nomatch heq), fun hc => ?_⟩⟩
        obtain ⟨_, heq⟩ := (hread c).1 hc
        cases heq
      | modelsExhausted =>
        refine ⟨rfl, hcalls', hlength, fun c => ⟨fun heq => (nomatch heq), fun hc => ?_⟩⟩
        obtain ⟨_, heq⟩ := (hread c).1 hc
        cases heq
    · exact ⟨_, s, rfl, rfl, h.toolCalls, by omega, hunread fun _ heq => (nomatch heq)⟩

end LensRun

theorem runLensLoop_sound {W C : Type} (deps : LensDeps W) (label : String)
    (parse : String → Option (LensReply C)) (world : W) :
    ∃ r s, runLensLoop deps label parse world = some (r, s) ∧ LensRunSound parse r s := by
  obtain ⟨stop, s, hloop, hleft⟩ := (LensRun.open_new parse (deps.now world).2).loop deps
    (deps.now world).1 label (Nat.lt_of_lt_of_le (Nat.lt_succ_self _) (Nat.le_add_left _ _))
  obtain ⟨r, s', hfinish, hsound⟩ := hleft.finish deps (deps.now world).1
  unfold runLensLoop
  dsimp only
  rw [hloop]
  exact ⟨r, s', hfinish, hsound⟩

end Cine.Grading

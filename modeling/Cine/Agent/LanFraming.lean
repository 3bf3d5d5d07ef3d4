import Cine.Lib.GarbledJson

/-!
# Messages on a LAN connection

A message is one line of JSON.  Both ends of a connection read alike: every
chunk of the stream is decoded on its own and put behind the buffer, and the
lines of the buffer are parsed.  The hub reads on whatever it parses; a
student node that parses a `hub_reject` destroys its socket.

An optional property that is `undefined` is not in the text, so it is no
property of the message here.

There are four groups.

* Messages, and the handlers of `data`.
* The lines of a text.  `received_eq` says what the chunks give: the parsed
  lines of the decoded text, up to one that ends the reading.
* A garbled stream.
* `framing_iff`: the messages are received exactly when no chunk begins
  inside a character.
-/

namespace Cine.Agent.LanFraming

open Cine.Lib
open Cine.Lib.JsonText
open Cine.Lib.Utf8 (Garbled Aligned)

variable {N : Type}

def typeKey : List Char := "type".toList

/-- A message: an object with a `type`, every property name once. -/
structure LabWireMessage (N : Type) where
  fields : Fields N
  typed : (fields.last? typeKey).isSome = true
  distinct : fields.collapse = fields

def LabWireMessage.value (msg : LabWireMessage N) : Value N := .obj msg.fields

section Handlers

variable (num : Numerals N)

def encodeWireMessage (msg : LabWireMessage N) : List Char := print num msg.value ++ ['\n']

/-- `parseWireMessage`.  An array has no property `type`. -/
def parseWireMessage (raw : List Char) : Option (Value N) :=
  match parse num raw with
  | some (.obj fields) => if (fields.last? typeKey).isSome then some (.obj fields) else none
  | _ => none

/-- What the handler of `data` keeps, and the messages it has parsed. -/
structure Reading (N : Type) where
  buffer : List Char
  received : List (Value N)
  destroyed : Bool

/-- The text up to the first line feed, and the text behind it. -/
def takeLine : List Char → Option (List Char × List Char)
  | [] => none
  | c :: s =>
    if c = '\n' then some ([], s)
    else (takeLine s).map fun r => (c :: r.1, r.2)

/-- The loop over the lines of the buffer.  `ends` tells the messages after
which the handler returns.  Every line has a character, so the length of the
buffer is fuel enough. -/
def drain (ends : Value N → Bool) : (fuel : Nat) → Reading N → Reading N
  | 0, r => r
  | fuel + 1, r =>
    match takeLine r.buffer with
    | none => r
    | some (line, rest) =>
      match parseWireMessage num line with
      | none => drain ends fuel { r with buffer := rest }
      | some msg =>
        if ends msg then ⟨rest, r.received ++ [msg], true⟩
        else drain ends fuel ⟨rest, r.received ++ [msg], r.destroyed⟩

/-- The handler of `data`. -/
def onData (ends : Value N → Bool) (r : Reading N) (chunk : List Nat) : Reading N :=
  if r.destroyed then r
  else
    let buffer := r.buffer ++ Utf8.decode chunk
    drain num ends buffer.length { r with buffer := buffer }

/-- What is parsed of a stream that comes in chunks. -/
def received (ends : Value N → Bool) (chunks : List (List Nat)) : List (Value N) :=
  (chunks.foldl (onData num ends) ⟨[], [], false⟩).received

end Handlers

def hubEnds : Value N → Bool := fun _ => false

/-- A student node ends with a `hub_reject`. -/
def nodeEnds : Value N → Bool
  | .obj fields =>
    match fields.last? typeKey with
    | some (.str s) => s = "hub_reject".toList
    | _ => false
  | _ => false

/-! ## The lines of a text -/

/-- The complete lines of a text, and the text behind them. -/
def lines : List Char → List (List Char) × List Char
  | [] => ([], [])
  | c :: s =>
    if c = '\n' then ([] :: (lines s).1, (lines s).2)
    else
      match (lines s).1 with
      | [] => ([], c :: (lines s).2)
      | line :: rest => ((c :: line) :: rest, (lines s).2)

theorem lines_of_takeLine_none {s : List Char} (h : takeLine s = none) : lines s = ([], s) := by
  induction s with
  | nil => rfl
  | cons c s ih =>
    rw [takeLine] at h
    split_ifs at h with hc
    rw [Option.map_eq_none_iff] at h
    rw [lines, if_neg hc, ih h]

theorem lines_of_takeLine {s line rest : List Char} (h : takeLine s = some (line, rest)) :
    lines s = (line :: (lines rest).1, (lines rest).2) ∧ rest.length < s.length := by
  induction s generalizing line with
  | nil => cases h
  | cons c s ih =>
    rw [takeLine] at h
    split_ifs at h with hc
    · cases h
      rw [lines, if_pos hc]
      exact ⟨rfl, Nat.lt_succ_self _⟩
    · obtain ⟨r, hr, heq⟩ := Option.map_eq_some_iff.1 h
      cases heq
      obtain ⟨hlines, hlength⟩ := ih hr
      rw [lines, if_neg hc, hlines, List.length_cons]
      exact ⟨rfl, by omega⟩

theorem lines_line {line : List Char} (h : '\n' ∉ line) (s : List Char) :
    lines (line ++ '\n' :: s) = (line :: (lines s).1, (lines s).2) := by
  induction line with
  | nil => exact if_pos rfl
  | cons c line ih =>
    rw [List.mem_cons, not_or] at h
    rw [List.cons_append, lines, if_neg (Ne.symm h.1), ih h.2]

theorem lines_append (s t : List Char) :
    lines (s ++ t) = ((lines s).1 ++ (lines ((lines s).2 ++ t)).1, (lines ((lines s).2 ++ t)).2) := by
  induction s with
  | nil => rfl
  | cons c s ih =>
    rw [List.cons_append, lines, ih, lines]
    by_cases hc : c = '\n'
    · rw [if_pos hc, if_pos hc]
      rfl
    · rw [if_neg hc, if_neg hc]
      cases hs : (lines s).1 with
      | nil =>
        rw [List.nil_append]
        dsimp only
        rw [List.nil_append, List.cons_append, lines, if_neg hc]
      | cons line rest => rfl

/-- A list up to the first element of a kind. -/
def upTo (ends : Value N → Bool) : List (Value N) → List (Value N)
  | [] => []
  | msg :: msgs => if ends msg then [msg] else msg :: upTo ends msgs

variable {ends : Value N → Bool} {msgs : List (Value N)}

theorem upTo_of_any {more : List (Value N)} (h : msgs.any ends = true) :
    upTo ends (msgs ++ more) = upTo ends msgs := by
  induction msgs with
  | nil => cases h
  | cons msg msgs ih =>
    rw [List.cons_append, upTo, upTo]
    by_cases hm : ends msg = true
    · rw [if_pos hm, if_pos hm]
    · rw [List.any_cons, Bool.eq_false_iff.2 hm, Bool.false_or] at h
      rw [if_neg hm, if_neg hm, ih h]

theorem upTo_append {more : List (Value N)} (h : msgs.any ends = false) :
    upTo ends (msgs ++ more) = msgs ++ upTo ends more := by
  induction msgs with
  | nil => rfl
  | cons msg msgs ih =>
    rw [List.any_cons, Bool.or_eq_false_iff] at h
    rw [List.cons_append, upTo, if_neg (by rw [h.1]; exact Bool.false_ne_true), ih h.2]
    rfl

theorem upTo_eq_self (h : msgs.any ends = false) : upTo ends msgs = msgs := by
  have happend : upTo ends (msgs ++ []) = msgs ++ upTo ends [] := upTo_append h
  rwa [List.append_nil, upTo, List.append_nil] at happend

theorem upTo_front (ends : Value N → Bool) (msgs : List (Value N)) : upTo ends msgs <+: msgs := by
  induction msgs with
  | nil => exact List.prefix_rfl
  | cons msg msgs ih =>
    rw [upTo]
    split_ifs
    · exact ⟨msgs, rfl⟩
    · exact List.cons_prefix_cons.2 ⟨rfl, ih⟩

section Stream

variable (num : Numerals N) (ends : Value N → Bool)

/-- The messages of the complete lines of a text. -/
def parsed (text : List Char) : List (Value N) := (lines text).1.filterMap (parseWireMessage num)

def HasRead (r : Reading N) (text : List Char) : Prop :=
  if (parsed num text).any ends then r.destroyed = true ∧ r.received = upTo ends (parsed num text)
  else r = ⟨(lines text).2, parsed num text, false⟩

theorem parsed_append (s t : List Char) :
    parsed num (s ++ t) = parsed num s ++ parsed num ((lines s).2 ++ t) := by
  unfold parsed
  rw [lines_append, List.filterMap_append]

theorem drain_eq {fuel : Nat} {r : Reading N} (hfuel : r.buffer.length ≤ fuel) :
    if (parsed num r.buffer).any ends then
      (drain num ends fuel r).destroyed = true ∧
        (drain num ends fuel r).received = r.received ++ upTo ends (parsed num r.buffer)
    else drain num ends fuel r =
      ⟨(lines r.buffer).2, r.received ++ parsed num r.buffer, r.destroyed⟩ := by
  induction fuel generalizing r with
  | zero =>
    have hnil : r.buffer = [] := List.length_eq_zero_iff.1 (Nat.le_zero.1 hfuel)
    have hparsed : parsed num r.buffer = [] := by rw [hnil]; rfl
    rw [hparsed, if_neg (by simp), drain, List.append_nil, hnil]
    show r = ⟨[], r.received, r.destroyed⟩
    rw [← hnil]
  | succ fuel ih =>
    rw [drain]
    cases hline : takeLine r.buffer with
    | none =>
      have hparsed : parsed num r.buffer = [] := by
        unfold parsed
        rw [lines_of_takeLine_none hline]
        rfl
      rw [hparsed, if_neg (by simp), lines_of_takeLine_none hline, List.append_nil]
    | some first =>
      obtain ⟨line, rest⟩ := first
      obtain ⟨hlines, hlength⟩ := lines_of_takeLine hline
      dsimp only
      cases hmsg : parseWireMessage num line with
      | none =>
        have hparsed : parsed num r.buffer = parsed num rest := by
          unfold parsed
          rw [hlines, List.filterMap_cons, hmsg]
        rw [hparsed, hlines]
        exact ih (r := { r with buffer := rest }) (by dsimp only; omega)
      | some msg =>
        have hparsed : parsed num r.buffer = msg :: parsed num rest := by
          unfold parsed
          rw [hlines, List.filterMap_cons, hmsg]
        rw [hparsed, hlines, List.any_cons, upTo]
        dsimp only
        cases hends : ends msg with
        | true => exact ⟨rfl, rfl⟩
        | false =>
          have hrest := ih (r := ⟨rest, r.received ++ [msg], r.destroyed⟩) (by dsimp only; omega)
          rw [Bool.false_or, if_neg Bool.false_ne_true, if_neg Bool.false_ne_true]
          simpa only [List.append_assoc, List.singleton_append] using hrest

theorem hasRead_onData {r : Reading N} {text : List Char} (h : HasRead num ends r text)
    (chunk : List Nat) : HasRead num ends (onData num ends r chunk) (text ++ Utf8.decode chunk) := by
  unfold HasRead at h ⊢
  rw [parsed_append]
  unfold onData
  cases hany : (parsed num text).any ends with
  | true =>
    rw [if_pos hany] at h
    rw [List.any_append, hany, Bool.true_or, if_pos rfl, upTo_of_any hany, if_pos h.1]
    exact h
  | false =>
    rw [hany, if_neg Bool.false_ne_true] at h
    subst h
    rw [List.any_append, hany, Bool.false_or, upTo_append hany, if_neg Bool.false_ne_true]
    have hdrain := drain_eq num ends
      (r := ⟨(lines text).2 ++ Utf8.decode chunk, parsed num text, false⟩) (Nat.le_refl _)
    rw [lines_append]
    exact hdrain

theorem received_eq (chunks : List (List Nat)) :
    received num ends chunks = upTo ends (parsed num (chunks.flatMap Utf8.decode)) := by
  have hall : ∀ {r : Reading N} {text : List Char}, HasRead num ends r text →
      HasRead num ends (chunks.foldl (onData num ends) r)
        (text ++ chunks.flatMap Utf8.decode) := by
    induction chunks with
    | nil =>
      intro r text h
      rw [List.flatMap_nil, List.append_nil]
      exact h
    | cons chunk chunks ih =>
      intro r text h
      rw [List.foldl_cons, List.flatMap_cons, ← List.append_assoc]
      exact ih (hasRead_onData num ends h chunk)
  have hstart : HasRead num ends (⟨[], [], false⟩ : Reading N) [] := by
    unfold HasRead
    exact rfl
  have hread := hall hstart
  rw [List.nil_append] at hread
  unfold HasRead at hread
  unfold received
  split_ifs at hread with hany
  · exact hread.2
  · rw [hread, upTo_eq_self (Bool.eq_false_iff.2 hany)]

end Stream

/-! ## A garbled stream -/

/-- The text of a list of values, a line each. -/
def text (num : Numerals N) (values : List (Value N)) : List Char :=
  values.flatMap fun v => print num v ++ ['\n']

theorem text_sent (num : Numerals N) (msgs : List (LabWireMessage N)) :
    msgs.flatMap (encodeWireMessage num) = text num (msgs.map LabWireMessage.value) := by
  unfold text
  rw [List.flatMap_map]
  rfl

theorem lines_text (num : Numerals N) (values : List (Value N)) :
    lines (text num values) = (values.map (print num), []) := by
  induction values with
  | nil => rfl
  | cons v values ih =>
    have hline : text num (v :: values) = print num v ++ '\n' :: text num values := by
      simp [text]
    rw [hline, lines_line (newline_not_mem_print num v), ih]
    rfl

theorem garbled_text (num : Numerals N) {values : List (Value N)} {r : List Char}
    (h : Garbled (text num values) r) :
    ∃ ws, r = text num ws ∧ List.Forall₂ Value.Garbled values ws := by
  induction values generalizing r with
  | nil =>
    cases h
    exact ⟨[], rfl, .nil⟩
  | cons v values ih =>
    have hline : text num (v :: values) = print num v ++ '\n' :: text num values := by
      simp [text]
    rw [hline] at h
    obtain ⟨rv, rest, rfl, hv, hrest⟩ := h.split
    obtain ⟨w, rfl, hw⟩ := garbled_print num v hv
    obtain ⟨tail, rfl, htail⟩ := hrest.ascii_cons (by decide)
    obtain ⟨ws, rfl, hws⟩ := ih htail
    exact ⟨w :: ws, by simp [text], .cons hw hws⟩

theorem parseWireMessage_garbled (num : Numerals N) (msg : LabWireMessage N) {w : Value N}
    (h : msg.value.Garbled w) : parseWireMessage num (print num w) = some w.collapse := by
  have hobj : (Value.obj msg.fields).Garbled w := h
  cases w with
  | obj b =>
    have hrel : Option.Rel Value.Garbled (msg.fields.last? typeKey) (b.last? typeKey) :=
      Fields.Garbled.last? (by decide) hobj
    have hb : (b.collapse.last? typeKey).isSome = true := by
      obtain ⟨v, hv⟩ := Option.isSome_iff_exists.1 msg.typed
      rw [last?_collapse, Option.isSome_map]
      rw [hv] at hrel
      revert hrel
      cases b.last? typeKey with
      | none => exact fun hrel => nomatch hrel
      | some w => exact fun _ => rfl
    unfold parseWireMessage
    rw [parse_print, Value.collapse]
    exact if_pos hb
  | _ => exact hobj.elim

theorem parsed_text (num : Numerals N) {msgs : List (LabWireMessage N)} {ws : List (Value N)}
    (h : List.Forall₂ Value.Garbled (msgs.map LabWireMessage.value) ws) :
    parsed num (text num ws) = ws.map Value.collapse := by
  unfold parsed
  rw [lines_text]
  dsimp only
  induction msgs generalizing ws with
  | nil =>
    cases h
    rfl
  | cons msg msgs ih =>
    cases h with
    | cons hw hws =>
      rw [List.map_cons, List.map_cons, List.filterMap_cons,
        parseWireMessage_garbled num msg hw, ih hws]

theorem nodeEnds_garbled {v w : Value N} (h : v.Garbled w) : nodeEnds w.collapse = nodeEnds v := by
  cases v with
  | obj a =>
    cases w with
    | obj b =>
      have hrel : Option.Rel Value.Garbled (a.last? typeKey) (b.last? typeKey) :=
        Fields.Garbled.last? (by decide) h
      rw [Value.collapse, nodeEnds, nodeEnds, last?_collapse]
      revert hrel
      cases a.last? typeKey with
      | none =>
        cases b.last? typeKey with
        | none => exact fun _ => rfl
        | some w' => exact fun hrel => nomatch hrel
      | some v' =>
        cases b.last? typeKey with
        | none => exact fun hrel => nomatch hrel
        | some w' =>
          intro hrel
          cases hrel with
          | some hv =>
            rw [Option.map_some]
            cases v' <;> cases w' <;> first | exact hv.elim | rfl | skip
            rename_i s t
            rw [Value.collapse]
            exact decide_eq_decide.2 (garbled_eq_iff hv (by decide))
    | _ => exact h.elim
  | _ => cases w <;> first | exact h.elim | rfl

theorem length_upTo {vs ws : List (Value N)} (h : List.Forall₂ (fun v w => ends w = ends v) vs ws) :
    (upTo ends ws).length = (upTo ends vs).length := by
  induction h with
  | nil => rfl
  | cons hvw _ ih =>
    rw [upTo, upTo, hvw]
    split_ifs
    · rfl
    · rw [List.length_cons, List.length_cons, ih]

/-- Nothing stands behind a message that ends the reading. -/
def EndsLast (ends : Value N → Bool) (msgs : List (Value N)) : Prop := upTo ends msgs = msgs

theorem eq_of_upTo_length (h : (upTo ends msgs).length = msgs.length) : EndsLast ends msgs :=
  (upTo_front ends msgs).eq_of_length h

theorem received_iff (num : Numerals N)
    (hends : ∀ v w : Value N, v.Garbled w → ends w.collapse = ends v)
    {msgs : List (LabWireMessage N)} {chunks : List (List Nat)}
    (h : chunks.flatten = Utf8.encode (msgs.flatMap (encodeWireMessage num))) :
    received num ends chunks = msgs.map LabWireMessage.value ↔
      Aligned chunks ∧ EndsLast ends (msgs.map LabWireMessage.value) := by
  obtain ⟨hgarbled, haligned⟩ := Utf8.decode_chunks h
  rw [text_sent] at hgarbled haligned
  obtain ⟨ws, hws, hall⟩ := garbled_text num hgarbled
  have hdistinct : ∀ v ∈ msgs.map LabWireMessage.value, v.collapse = v := by
    intro v hv
    obtain ⟨msg, -, rfl⟩ := List.mem_map.1 hv
    rw [LabWireMessage.value, Value.collapse, msg.distinct]
  rw [received_eq, hws, parsed_text num hall, ← haligned, hws]
  generalize msgs.map LabWireMessage.value = values at hall hdistinct ⊢
  -- what is received is as long as what is sent up to the first that ends
  have hlength : (upTo ends (ws.map Value.collapse)).length = (upTo ends values).length := by
    refine length_upTo ?_
    rw [List.forall₂_map_right_iff]
    exact hall.imp fun v w => hends v w
  have hcollapse : ws.map Value.collapse = values ↔ ws = values := by
    clear hlength hws hgarbled haligned
    induction hall with
    | nil => exact Iff.rfl
    | cons hvw _ ih =>
      obtain ⟨hv, hvs⟩ := List.forall_mem_cons.1 hdistinct
      rw [List.map_cons, List.cons.injEq, List.cons.injEq, hvw.collapse_eq_iff hv, ih hvs]
  have htext : text num ws = text num values ↔ ws = values := by
    constructor
    · intro heq
      have hlines := congrArg (fun t => (lines t).1) heq
      simp only [lines_text] at hlines
      exact List.map_injective_iff.2 (print_injective num) hlines
    · rintro rfl
      rfl
  rw [htext, ← hcollapse]
  constructor
  · intro heq
    have hlast : EndsLast ends values := eq_of_upTo_length (by rw [← hlength, heq])
    have hlast' : EndsLast ends (ws.map Value.collapse) := by
      refine eq_of_upTo_length ?_
      rw [heq, List.length_map, hall.length_eq]
    rw [EndsLast, heq] at hlast'
    exact ⟨hlast'.symm, hlast⟩
  · rintro ⟨heq, hlast⟩
    rw [heq]
    exact hlast

/-! ## Both ends -/

/-- Whatever the messages are and however their bytes are cut: the hub
parses exactly the messages sent when and only when no chunk begins inside a
character, and a student node when besides nothing is sent behind a
`hub_reject`. -/
theorem framing_iff (num : Numerals N) (msgs : List (LabWireMessage N))
    (chunks : List (List Nat))
    (hcut : chunks.flatten = Utf8.encode (msgs.flatMap (encodeWireMessage num))) :
    (received num hubEnds chunks = msgs.map LabWireMessage.value ↔ Aligned chunks) ∧
      (received num nodeEnds chunks = msgs.map LabWireMessage.value ↔
        Aligned chunks ∧ EndsLast nodeEnds (msgs.map LabWireMessage.value)) := by
  have hhub : EndsLast hubEnds (msgs.map LabWireMessage.value) :=
    upTo_eq_self (by simp [hubEnds])
  refine ⟨?_, received_iff num (fun _ _ => nodeEnds_garbled) hcut⟩
  rw [received_iff num (fun _ _ _ => rfl) hcut]
  exact and_iff_left hhub

/-- Messages without numbers. -/
private def noNumbers : Numerals Empty :=
  ⟨Empty.elim, fun _ => none, fun n => n.elim, fun n => n.elim, fun n => n.elim⟩

/-- `{"type":"hub_hello","hostname":"Lê"}`. -/
private def hello : LabWireMessage Empty where
  fields := .cons typeKey (.str "hub_hello".toList)
    (.cons "hostname".toList (.str "Lê".toList) .nil)
  typed := rfl
  distinct := rfl

private def helloBytes : List Nat := Utf8.encode (encodeWireMessage noNumbers hello)

theorem hello_in_two_chunks :
    (received noNumbers hubEnds [helloBytes.take 5, helloBytes.drop 5] = [hello.value] ↔
      Aligned [helloBytes.take 5, helloBytes.drop 5]) ∧
    (received noNumbers nodeEnds [helloBytes.take 5, helloBytes.drop 5] = [hello.value] ↔
      Aligned [helloBytes.take 5, helloBytes.drop 5] ∧ EndsLast nodeEnds [hello.value]) :=
  framing_iff noNumbers [hello] [helloBytes.take 5, helloBytes.drop 5] (by decide)

/-- A cut inside the `ê` of a host name changes the name. -/
theorem cut_name_is_changed : ¬ ∀ (M : Type) (num : Numerals M) (msgs : List (LabWireMessage M))
    (chunks : List (List Nat)),
    chunks.flatten = Utf8.encode (msgs.flatMap (encodeWireMessage num)) →
    received num hubEnds chunks = msgs.map LabWireMessage.value := by
  intro h
  have hcut : [helloBytes.take 34, helloBytes.drop 34].flatten =
      Utf8.encode ([hello].flatMap (encodeWireMessage noNumbers)) := by decide
  have haligned := ((received_iff noNumbers (fun _ _ _ => rfl) hcut).1
    (h Empty noNumbers _ _ hcut)).1
  revert haligned
  decide

end Cine.Agent.LanFraming

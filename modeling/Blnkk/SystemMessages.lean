import Blnkk.Lib.Json
import Blnkk.MessageLog

/-!
The system messages about requests: `post_message` writes them as JSON into the
content of a message, and `translateSystemMessage` of the browser makes a link
of them.
-/

namespace Blnkk

open Relational ConversationsSocket

/-- A property of the parsed content as JavaScript puts it into a text. Numbers
other than integers of at most fifteen digits, arrays and objects are left out. -/
def propertyText : Option Json → Option String
  | none => some "undefined"
  | some .null => some "null"
  | some (.bool b) => some (if b then "true" else "false")
  | some (.string s) => some (String.ofList s)
  | some (.number literal) =>
    if literal.all Char.isDigit && decide (literal.length ≤ 15) then some (String.ofList literal) else none
  | some (.array _) | some (.object _) => none

def requestLink (id content : String) : String :=
  "<a class=\"main\" href=\"/b/" ++ id ++ "\">" ++ content ++ "</a>"

/-- Nothing is returned when `JSON.parse` or a property of null raises. -/
def translateSystemMessage (m : Message) : Option String :=
  if m.systemGenerated then
    match Json.parse m.content.toList with
    | none | some .null => none
    | some content =>
      match content.get? "type".toList with
      | some (.string s) =>
        if s = "message_from_request".toList then do
          let id ← propertyText (content.get? "requestId".toList)
          let text ← propertyText (content.get? "requestContent".toList)
          some (requestLink id text)
        else some ""
      | _ => some ""
  else some ""

section Format

def systemFields (r : Request) : List Json.Field :=
  [⟨"type".toList, '"' :: "message_from_request".toList ++ ['"'], .string "message_from_request".toList⟩,
    ⟨"requestId".toList, Nat.toDigits 10 r.id, .number (Nat.toDigits 10 r.id)⟩,
    ⟨"requestContent".toList, (Text.toJson (Text.truncate 140 r.subject)).toList,
      .string (Text.truncate 140 r.subject).toList⟩]

theorem systemContent_toList (r : Request) : (systemContent r).toList = '\x7b' :: Json.body (systemFields r) := by
  have hdigits : (toString r.id).toList = Nat.toDigits 10 r.id := by simp
  have hfirst : "\x7b\"type\":\"message_from_request\",\"requestId\":".toList =
      '\x7b' :: ('"' :: "type".toList ++ '"' :: ':' :: ('"' :: "message_from_request".toList ++ ['"']) ++
        ',' :: ('"' :: "requestId".toList ++ ['"', ':'])) := by decide
  have hsecond : ",\"requestContent\":".toList = ',' :: ('"' :: "requestContent".toList ++ ['"', ':']) := by decide
  have hlast : "\x7d".toList = ['\x7d'] := by decide
  unfold systemContent
  rw [String.toList_append, String.toList_append, String.toList_append, String.toList_append, hdigits, hfirst, hsecond,
    hlast]
  simp only [systemFields, Json.body]
  simp only [List.append_assoc, List.cons_append, List.nil_append]

theorem parse_systemContent (r : Request) :
    Json.parse (systemContent r).toList =
      some (.object [("type".toList, .string "message_from_request".toList),
        ("requestId".toList, .number (Nat.toDigits 10 r.id)),
        ("requestContent".toList, .string (Text.truncate 140 r.subject).toList)]) := by
  have hne : systemFields r ≠ [] := List.cons_ne_nil _ _
  have hnames : Json.Plain "type".toList ∧ Json.Plain "requestId".toList ∧ Json.Plain "requestContent".toList ∧
      Json.Plain "message_from_request".toList := by decide
  obtain ⟨htype, hid, hcontent, hkind⟩ := hnames
  have hsubject : Json.Reads 1 (Text.toJson (Text.truncate 140 r.subject)).toList
      (.string (Text.truncate 140 r.subject).toList) := by
    rw [Text.toJson, String.toList_ofList]
    exact Json.reads_quote _
  rw [systemContent_toList, Json.parse_object hne]
  · rfl
  · intro f hf
    rw [systemFields, List.mem_cons, List.mem_cons, List.mem_singleton] at hf
    rcases hf with rfl | rfl | rfl
    · exact ⟨htype, Json.reads_string (Json.stringBody_plain hkind)⟩
    · exact ⟨hid, Json.reads_toDigits r.id⟩
    · dsimp only
      exact ⟨hcontent, hsubject⟩

theorem propertyText_toDigits {n : ℕ} (h : n < 10 ^ 15) :
    propertyText (some (.number (Nat.toDigits 10 n))) = some (toString n) := by
  have hdigits : (Nat.toDigits 10 n).all Char.isDigit = true := by
    rw [List.all_eq_true]
    exact fun c hc => Nat.isDigit_of_mem_toDigits (by omega) (by omega) hc
  have hlength : (Nat.toDigits 10 n).length ≤ 15 := by
    have hrepr := Nat.repr_length n 15 (by omega) h
    rwa [Nat.repr_eq_ofList_toDigits, String.length_ofList] at hrepr
  rw [propertyText, hdigits, decide_eq_true hlength, Bool.and_self, if_pos rfl]
  exact congrArg some Nat.repr_eq_ofList_toDigits.symm

theorem propertyText_string (s : List Char) : propertyText (some (.string s)) = some (String.ofList s) := rfl

theorem translate_systemContent {r : Request} (hid : r.id < 10 ^ 15) {m : Message}
    (hsystem : m.systemGenerated = true) (hm : m.content = systemContent r) :
    translateSystemMessage m = some (requestLink (toString r.id) (Text.truncate 140 r.subject)) := by
  rw [translateSystemMessage, if_pos hsystem, hm, parse_systemContent]
  have hnames : "requestId".toList ≠ "type".toList ∧ "requestContent".toList ≠ "type".toList ∧
      "requestContent".toList ≠ "requestId".toList := by decide
  generalize "type".toList = type at hnames ⊢
  generalize "requestId".toList = requestId at hnames ⊢
  generalize "requestContent".toList = requestContent at hnames ⊢
  simp [Json.get?, hnames, propertyText_toDigits hid, propertyText_string]

/-- The quoted subject has its angle brackets escaped, so that the sanitizer
has nothing to remove. -/
theorem not_mem_systemContent (r : Request) : '<' ∉ (systemContent r).toList := by
  have htexts : '<' ∉ "\x7b\"type\":\"message_from_request\",\"requestId\":".toList ∧
      '<' ∉ ",\"requestContent\":".toList ∧ '<' ∉ "\x7d".toList := by decide
  have hid : '<' ∉ (toString r.id).toList := by
    intro h
    rw [show (toString r.id).toList = Nat.toDigits 10 r.id by simp] at h
    exact absurd (Nat.isDigit_of_mem_toDigits (by omega) (by omega) h) (by decide)
  have hsubject : '<' ∉ (Text.toJson (Text.truncate 140 r.subject)).toList := by
    rw [Text.toJson, String.toList_ofList, Json.quote]
    simp [Json.not_mem_escapeChar]
  obtain ⟨hfirst, hsecond, hlast⟩ := htexts
  unfold systemContent
  rw [String.toList_append, String.toList_append, String.toList_append, String.toList_append]
  simp only [List.mem_append, not_or]
  exact ⟨⟨⟨⟨hfirst, hid⟩, hsecond⟩, hsubject⟩, hlast⟩

end Format

section Origin

variable {P : Platform}

/-- The request that the payload names, which is not the sender's own. -/
structure Announced (P : Platform) (db : Db) (me : ℕ) (payload : Payload) (m : Message) (r : Request) : Prop where
  author : m.userId = some me
  named : payload.requestId = some r.id
  mem : r ∈ db.requests.rows
  other : r.userId ≠ me
  content : m.content = P.sanitizeField (systemContent r)

theorem Announced.of_request? {db : Db} {me : ℕ} {payload : Payload} {r : Request}
    (h : payload.request? db me = some r) {m : Message} (hauthor : m.userId = some me)
    (hcontent : m.content = P.sanitizeField (systemContent r)) : Announced P db me payload m r := by
  unfold Payload.request? at h
  split at h
  · cases h
  · obtain ⟨hget, hother⟩ := Option.filter_eq_some_iff.mp h
    obtain ⟨id, hid, hrow⟩ := Option.bind_eq_some_iff.mp hget
    have hkey : r.id = id := Table.get?_key hrow
    exact ⟨hauthor, by rw [hid, hkey], Table.get?_mem hrow, by simpa using hother, hcontent⟩

theorem announce_system {db base : Db} {now me c : ℕ} {payload : Payload} {m : Message}
    (hm : m ∈ (announce P base now me c (payload.request? db me)).1.messages.rows) :
    m ∈ base.messages.rows ∨ ∃ r, Announced P db me payload m r := by
  rw [announce_messages, List.mem_append, List.mem_map] at hm
  rcases hm with hm | ⟨text, htext, rfl⟩
  · exact Or.inl hm
  · obtain ⟨r, hr, rfl, -⟩ := announcementText_some P (Option.mem_toList.mp htext)
    exact Or.inr ⟨r, .of_request? hr rfl rfl⟩

theorem create_system {db : Db} {now c me : ℕ} {content : Option String} {m : Message}
    (hm : m ∈ (Message.save P db now c (some me) false content).2.messages.rows) (hs : m.systemGenerated = true) :
    m ∈ db.messages.rows := by
  rcases Message.save_cases P db now c (some me) false content with h | ⟨text, h⟩
  · rwa [h] at hm
  · rw [h] at hm
    rcases List.mem_append.mp hm with hm | hm
    · exact hm
    · rw [List.mem_singleton.mp hm] at hs
      cases hs

theorem postMessage_system {db : Db} (hc : Consistent db) {now : ℕ} {online : List ℕ} {me : ℕ} {payload : Payload}
    {m : Message} (hm : m ∈ (postMessage P db now online me payload).1.messages.rows) (hs : m.systemGenerated = true) :
    m ∈ db.messages.rows ∨ ∃ r, Announced P db me payload m r := by
  cases hme : db.users.has me with
  | false =>
    rw [postMessage_unknown P now online hme payload] at hm
    exact Or.inl hm
  | true =>
    have houtcome := postMessage_outcome P hc now online hme payload
    generalize ConversationsSocket.postMessage P db now online me payload = result at houtcome hm
    cases houtcome with
    | refused answer hex => exact Or.inl hm
    | half left hex hpartner hleft =>
      obtain ⟨table, rfl, -⟩ := createConversation_error hleft
      exact Or.inl hm
    | stopped base c isNew answer hreach =>
      rw [← hreach.messages]
      exact announce_system hm
    | delivered base c isNew part created hreach haccepted hcreated =>
      subst hcreated
      rw [deliver_messages] at hm
      rw [← hreach.messages]
      exact announce_system (create_system hm hs)

theorem step_system {db : Db} (hc : Consistent db) {op : Op} {m : Message} (hold : m ∉ db.messages.rows)
    (hm : m ∈ (step P db op).messages.rows) (hs : m.systemGenerated = true) :
    ∃ now online me payload r, op = .postMessage now online me payload ∧ Announced P db me payload m r := by
  cases ha : op.author? with
  | none =>
    rw [step_messages P db ha] at hm
    exact absurd hm hold
  | some author =>
    cases op with
    | postMessage now online me payload =>
      rcases postMessage_system hc hm hs with h | ⟨r, hr⟩
      · exact absurd h hold
      · exact ⟨now, online, me, payload, r, rfl, hr⟩
    | _ => cases ha

/-- `HTML::FullSanitizer` returns a text without `<` as it is. -/
theorem system_message_links_request (hsanitize : ∀ text : String, '<' ∉ text.toList → P.sanitize text = text)
    (settings : Settings) (ops : List Op) (m : Message)
    (hm : m ∈ (Transition.run (step P) (Db.new settings) ops).messages.rows) (hs : m.systemGenerated = true) :
    ∃ before now online me payload after r, ops = before ++ .postMessage now online me payload :: after ∧
      payload.requestId = some r.id ∧ r ∈ (Transition.run (step P) (Db.new settings) before).requests.rows ∧
      r.userId ≠ me ∧ m.userId = some me ∧
      (r.id < 10 ^ 15 →
        translateSystemMessage m = some (requestLink (toString r.id) (Text.truncate 140 r.subject))) := by
  have hnew : m ∉ (Db.new settings).messages.rows := List.not_mem_nil
  obtain ⟨before, op, after, rfl, hbefore, hstep⟩ :=
    Transition.exists_step_of_not (step P) (Q := fun db => m ∈ db.messages.rows) hnew hm
  have hreachable : Reachable P (Transition.run (step P) (Db.new settings) before) := ⟨settings, before, rfl⟩
  obtain ⟨now, online, me, payload, r, rfl, hr⟩ := step_system hreachable.consistent hbefore hstep hs
  refine ⟨before, now, online, me, payload, after, r, rfl, hr.named, hr.mem, hr.other, hr.author, ?_⟩
  intro hid
  apply translate_systemContent hid hs
  rw [hr.content, Platform.sanitizeField, hsanitize _ (not_mem_systemContent r), ite_self]

def bobAsksAboutBike : List Op :=
  [.signUp "ann@blnkk.com" "ann", .signUp "bob@blnkk.com" "bob", .createRequest 1 "a <3 bike" "wanted" none,
    .postMessage 10 [] 2 { message := some { content := some "hello" }, requestId := some 1 }]

theorem bob_message_links_bike :
    ∃ m ∈ (Transition.run (step .plain) (Db.new {}) bobAsksAboutBike).messages.rows, m.systemGenerated = true ∧
      translateSystemMessage m = some (requestLink "1" "a <3 bike") ∧
      ∃ before now online me payload after r, bobAsksAboutBike = before ++ .postMessage now online me payload :: after ∧
        payload.requestId = some r.id ∧ r ∈ (Transition.run (step .plain) (Db.new {}) before).requests.rows ∧
        r.userId ≠ me ∧ m.userId = some me ∧
        (r.id < 10 ^ 15 →
          translateSystemMessage m = some (requestLink (toString r.id) (Text.truncate 140 r.subject))) := by
  have hm : ∃ m ∈ (Transition.run (step .plain) (Db.new {}) bobAsksAboutBike).messages.rows,
      m.systemGenerated = true ∧ translateSystemMessage m = some (requestLink "1" "a <3 bike") := by decide +kernel
  obtain ⟨m, hm, hs, hlink⟩ := hm
  exact ⟨m, hm, hs, hlink, system_message_links_request (fun _ _ => rfl) {} bobAsksAboutBike m hm hs⟩

end Origin

end Blnkk

import Blnkk.EmailSettings
import Blnkk.Lib.Base64
import Blnkk.Lib.Json

/-!
The text of the token in an unsubscribe link, which `getToken` writes and
`processToken` reads: the hash as JSON, in UTF-8, in Base64 for URLs.
-/

namespace Blnkk

namespace EmailSetting

/-- `email_hash.to_json`. -/
def hashText (email setting : String) : String :=
  String.ofList ('\x7b' :: '"' :: "email".toList ++ '"' :: ':' :: Json.quote email.toList ++
    ',' :: '"' :: "setting".toList ++ '"' :: ':' :: Json.quote setting.toList ++ ['\x7d'])

def getTokenText (email setting : String) : String :=
  String.ofList (Base64.encode (hashText email setting).toUTF8.data.toList)

def stringField (name : String) (hash : Json) : Option String :=
  match hash.get? name.toList with
  | some (.string s) => some (String.ofList s)
  | _ => none

/-- What `processToken` reads from the text, if nothing raises. A key that does
not hold a string counts as missing. -/
def readToken (text : String) : Option Token := do
  let bytes ← Base64.decode text.toList
  let json ← String.fromUTF8? ⟨bytes.toArray⟩
  match Json.parse json.toList with
  | some (.object fields) => some ⟨stringField "email" (.object fields), stringField "setting" (.object fields)⟩
  | _ => none

def processTokenText (P : Platform) (t : EmailSettings) (text : String) : Option EmailSettings :=
  (readToken text).map (processToken P t)

def hashFields (email setting : String) : List Json.Field :=
  [⟨"email".toList, Json.quote email.toList, .string email.toList⟩,
    ⟨"setting".toList, Json.quote setting.toList, .string setting.toList⟩]

theorem hashText_toList (email setting : String) :
    (hashText email setting).toList = '\x7b' :: Json.body (hashFields email setting) := by
  unfold hashText
  apply String.toList_ofList.trans
  exact Json.body_two ⟨"email".toList, Json.quote email.toList, .string email.toList⟩
    ⟨"setting".toList, Json.quote setting.toList, .string setting.toList⟩

theorem parse_hashText (email setting : String) :
    Json.parse (hashText email setting).toList =
      some (.object [("email".toList, .string email.toList), ("setting".toList, .string setting.toList)]) := by
  have hne : hashFields email setting ≠ [] := List.cons_ne_nil _ _
  rw [hashText_toList, Json.parse_object hne]
  · rfl
  · have hemail : Json.Plain "email".toList := by decide
    have hsetting : Json.Plain "setting".toList := by decide
    intro f hf
    simp only [hashFields, List.mem_cons, List.not_mem_nil, or_false] at hf
    rcases hf with rfl | rfl
    · exact ⟨hemail, Json.reads_quote _⟩
    · exact ⟨hsetting, Json.reads_quote _⟩

theorem fromUTF8?_toUTF8 (s : String) : String.fromUTF8? ⟨s.toUTF8.data.toList.toArray⟩ = some s := by
  rw [Array.toArray_toList]
  exact dif_pos s.isValidUTF8

theorem readToken_getTokenText (email setting : String) :
    readToken (getTokenText email setting) = some ⟨some email, some setting⟩ := by
  rw [readToken, getTokenText, String.toList_ofList, Base64.decode_encode]
  simp only [Option.bind_eq_bind, Option.bind_some]
  rw [fromUTF8?_toUTF8]
  simp only [Option.bind_some]
  rw [parse_hashText]
  simp [stringField, Json.get?]

end EmailSetting

open EmailSetting

/-- The text of a link is one segment of a path, and reading it back gives the
address and the setting, whatever the two contain. -/
theorem unsubscribe_link_round_trip (P : Platform) (t : EmailSettings) (email setting : String) :
    processTokenText P t (getTokenText email setting) = some (processToken P t ⟨some email, some setting⟩) ∧
      (∀ email' setting', getTokenText email' setting' = getTokenText email setting → email' = email ∧ setting' = setting) ∧
      ∀ c ∈ (getTokenText email setting).toList, c ∉ ['/', '.', '?', '#', '%', '+', '&', ' '] := by
  refine ⟨?_, ?_, ?_⟩
  · rw [processTokenText, readToken_getTokenText, Option.map_some]
  · intro email' setting' heq
    have hread := readToken_getTokenText email' setting'
    rw [heq, readToken_getTokenText, Option.some.injEq] at hread
    obtain ⟨hemail, hsetting⟩ := Token.mk.inj hread
    exact ⟨(Option.some.inj hemail).symm, (Option.some.inj hsetting).symm⟩
  · intro c hc
    rw [getTokenText, String.toList_ofList] at hc
    have hsafe : Base64.alphabet.all (fun c => decide (c ∉ ['/', '.', '?', '#', '%', '+', '&', ' '])) = true := by
      decide +kernel
    rcases Base64.mem_encode hc with hc | rfl
    · exact of_decide_eq_true (List.all_eq_true.mp hsafe c hc)
    · decide

example : getTokenText "a&b@c.de" MailSetting.comments.name =
    "eyJlbWFpbCI6ImFcdTAwMjZiQGMuZGUiLCJzZXR0aW5nIjoiY29tbWVudHMifQ==" := by decide +kernel

end Blnkk

import Blnkk.SignIn
import Blnkk.Lib.Percent
import Mathlib.Data.List.TakeWhile

/-!
The `state` parameter that the browser sends through an OAuth provider, and
what `OauthServicesController#authentication` reads from it.
-/

namespace Blnkk

inductive Provider where
  | facebook
  | google
  | linkedin
  deriving DecidableEq

def Provider.name : Provider → String
  | facebook => "facebook"
  | google => "google"
  | linkedin => "linkedin"

inductive Locale where
  | en
  | zhTW
  | zhCN
  deriving DecidableEq

def Locale.name : Locale → String
  | en => "en"
  | zhTW => "zh-TW"
  | zhCN => "zh-CN"

/-- What the callers of `getAuthenticationURL` pass as the type of the request. -/
inductive JsValue where
  | null
  | text (s : String)
  | scope
  deriving DecidableEq

/-- The value as an operand of string concatenation. -/
def JsValue.toText : JsValue → String
  | null => "null"
  | text s => s
  | scope => "[object Object]"

/-- `split(sep)[0]` in the browser. -/
def Text.upTo (sep : Char) (s : String) : String := String.ofList (s.toList.takeWhile (· != sep))

/-- The state in the URL of `getAuthenticationURL`, before and after its encoding. -/
def stateText (provider : Provider) (redirectTo : String) (requestType : JsValue) (locale : Locale) : String :=
  let requestType := if requestType = .null then .text "signin" else requestType
  "redirect=" ++ Text.upTo '?' redirectTo ++ "&provider=" ++ provider.name ++ "&type=" ++ requestType.toText ++
    "&ln=" ++ locale.name

def getAuthenticationState (provider : Provider) (redirectTo : String) (requestType : JsValue) (locale : Locale) :
    String := Percent.encodeURIComponent (stateText provider redirectTo requestType locale)

/-- The places of the client that send a user to a provider. -/
inductive SignInCaller where
  | dialog (provider : Provider) (type : FlowType)
  -- `signIn` with the type `signin-Facebook` or `signup-Facebook`
  | sessionFacebook (type : FlowType)
  | linkFacebook
  | linkLinkedin
  deriving DecidableEq

namespace SignInCaller

def provider : SignInCaller → Provider
  | dialog provider _ => provider
  | sessionFacebook _ => .facebook
  | linkFacebook => .facebook
  | linkLinkedin => .linkedin

def chosen : SignInCaller → String
  | dialog _ type => type.name
  | sessionFacebook type => type.name
  | linkFacebook => "info"
  | linkLinkedin => "info"

/-- The Facebook button of the dialog passes the scope of its controller. -/
def requestType : SignInCaller → JsValue
  | dialog .facebook _ => .scope
  | dialog .google type => .text type.name
  | dialog .linkedin type => .text type.name
  | sessionFacebook type => .text (Text.upTo '-' (type.name ++ "-Facebook"))
  | linkFacebook => .text "info"
  | linkLinkedin => .text "info"

/-- `params[:state]` at the server. The provider gives the state back unchanged. -/
def state (caller : SignInCaller) (redirectTo : String) (locale : Locale) : Option String :=
  Percent.decode (getAuthenticationState caller.provider redirectTo caller.requestType locale)

end SignInCaller

def PlainPath (path : String) : Prop := path ≠ "" ∧ '?' ∉ path.toList ∧ '&' ∉ path.toList ∧ '=' ∉ path.toList

open OauthServicesController in
/-- The server reads what the user has chosen. -/
def RoundTrips (caller : SignInCaller) (redirectTo : String) (locale : Locale) : Prop :=
  ∃ state, caller.state redirectTo locale = some state ∧
    stateParam state "provider" = some caller.provider.name ∧ stateParam state "type" = some caller.chosen ∧
    stateParam state "ln" = some locale.name ∧ (PlainPath redirectTo → stateParam state "redirect" = some redirectTo)

namespace Text

/-- A name or value that the separators of the state do not cut. -/
def Whole (s : String) : Prop := s ≠ "" ∧ '&' ∉ s.toList ∧ '=' ∉ s.toList

instance (s : String) : Decidable (Whole s) := inferInstanceAs (Decidable (_ ∧ _ ∧ _))

theorem Whole.toList_ne_nil {s : String} (h : Whole s) : s.toList ≠ [] := by
  intro hs
  exact h.1 (String.toList_eq_nil_iff.mp hs)

theorem split_pair {key value : String} (hk : Whole key) (hv : Whole value) :
    split '=' (key ++ "=" ++ value) = [key, value] := by
  have hchars : splitChars '=' (key ++ "=" ++ value).toList = [key.toList] ++ [value.toList] := by
    rw [String.toList_append, String.toList_append, List.append_assoc]
    exact (splitChars_append _ _).trans
      (congrArg₂ _ (splitChars_of_not_mem hk.2.2) (splitChars_of_not_mem hv.2.2))
  rw [split_of_concat hchars hv.toList_ne_nil]
  simp

end Text

namespace OauthServicesController

open Text

def statePair (param : String) : Option String × Option String := ((split '=' param)[0]?, (split '=' param)[1]?)

theorem statePair_whole {key value : String} (hk : Whole key) (hv : Whole value) :
    statePair (key ++ "=" ++ value) = (some key, some value) := by
  rw [statePair, split_pair hk hv]
  rfl

theorem whole_param {key value : String} (hk : Whole key) (hv : Whole value) :
    '&' ∉ (key ++ "=" ++ value).toList := by
  rw [String.toList_append, String.toList_append, List.mem_append, List.mem_append]
  rintro ((h | h) | h)
  · exact hk.2.1 h
  · revert h
    decide
  · exact hv.2.1 h

theorem splitChars_param {key value : String} (hk : Whole key) (hv : Whole value) (before : String) :
    splitChars '&' (before ++ "&" ++ (key ++ "=" ++ value)).toList =
      splitChars '&' before.toList ++ [(key ++ "=" ++ value).toList] := by
  rw [String.toList_append, String.toList_append, List.append_assoc]
  exact (splitChars_append _ _).trans (congrArg _ (splitChars_of_not_mem (whole_param hk hv)))

/-- The pairs that the client appends come last, whatever stands before them. -/
theorem stateParams_tail (before : String) {provider type ln : String} (hp : Whole provider) (ht : Whole type)
    (hl : Whole ln) :
    stateParams (before ++ "&provider=" ++ provider ++ "&type=" ++ type ++ "&ln=" ++ ln) =
      (splitChars '&' before.toList).map (statePair ∘ String.ofList) ++
        [(some "provider", some provider), (some "type", some type), (some "ln", some ln)] := by
  have hkey : ∀ key ∈ ["provider", "type", "ln"], Whole key := by decide
  have hstate : before ++ "&provider=" ++ provider ++ "&type=" ++ type ++ "&ln=" ++ ln =
      before ++ "&" ++ ("provider" ++ "=" ++ provider) ++ "&" ++ ("type" ++ "=" ++ type) ++ "&" ++
        ("ln" ++ "=" ++ ln) := by
    have hcut : "&provider=" = "&" ++ ("provider" ++ "=") ∧ "&type=" = "&" ++ ("type" ++ "=") ∧
        "&ln=" = "&" ++ ("ln" ++ "=") := by decide
    rw [hcut.1, hcut.2.1, hcut.2.2]
    simp only [String.append_assoc]
  have hchars := splitChars_param (hkey "ln" (by decide)) hl
    (before ++ "&" ++ ("provider" ++ "=" ++ provider) ++ "&" ++ ("type" ++ "=" ++ type))
  rw [splitChars_param (hkey "type" (by decide)) ht, splitChars_param (hkey "provider" (by decide)) hp] at hchars
  have hsplit := split_of_concat hchars (by simp)
  rw [stateParams, hstate, hsplit]
  have hpair : ∀ words : List String, words.map (fun param => ((split '=' param)[0]?, (split '=' param)[1]?)) =
      words.map statePair := fun _ => rfl
  rw [hpair]
  simp only [List.map_append, List.map_map, List.map_cons, List.map_nil, String.ofList_toList, List.append_assoc,
    List.cons_append, List.nil_append, statePair_whole (hkey "ln" (by decide)) hl,
    statePair_whole (hkey "type" (by decide)) ht, statePair_whole (hkey "provider" (by decide)) hp]

theorem stateParam_tail (before : String) {provider type ln : String} (hp : Whole provider) (ht : Whole type)
    (hl : Whole ln) :
    let state := before ++ "&provider=" ++ provider ++ "&type=" ++ type ++ "&ln=" ++ ln
    stateParam state "provider" = some provider ∧ stateParam state "type" = some type ∧
      stateParam state "ln" = some ln := by
  simp only [stateParam, stateParams_tail before hp ht hl, List.reverse_append]
  exact ⟨rfl, rfl, rfl⟩

theorem stateParam_redirect {path provider type ln : String} (hpath : Whole path) (hp : Whole provider)
    (ht : Whole type) (hl : Whole ln) :
    stateParam ("redirect=" ++ path ++ "&provider=" ++ provider ++ "&type=" ++ type ++ "&ln=" ++ ln) "redirect" =
      some path := by
  have hkey : Whole "redirect" := by decide
  have hcut : "redirect=" = "redirect" ++ "=" := by decide
  have hfirst : "redirect=" ++ path = "redirect" ++ "=" ++ path := by rw [hcut]
  have hwords : splitChars '&' ("redirect" ++ "=" ++ path).toList = [("redirect" ++ "=" ++ path).toList] :=
    splitChars_of_not_mem (whole_param hkey hpath)
  rw [stateParam, hfirst, stateParams_tail _ hp ht hl, hwords, List.map_singleton, Function.comp_apply,
    String.ofList_toList, statePair_whole hkey hpath]
  rfl

end OauthServicesController

theorem upTo_of_not_mem {sep : Char} {s : String} (h : sep ∉ s.toList) : Text.upTo sep s = s := by
  have hall : s.toList.takeWhile (· != sep) = s.toList := by
    apply List.takeWhile_eq_self_iff.mpr
    intro c hc
    simp only [bne_iff_ne]
    rintro rfl
    exact h hc
  rw [Text.upTo, hall, String.ofList_toList]

theorem Provider.name_whole (provider : Provider) : Text.Whole provider.name := by cases provider <;> decide

theorem Locale.name_whole (locale : Locale) : Text.Whole locale.name := by cases locale <;> decide

namespace SignInCaller

theorem requestType_whole (caller : SignInCaller) : Text.Whole caller.requestType.toText := by
  cases caller with
  | dialog provider type => cases provider <;> cases type <;> decide
  | sessionFacebook type => cases type <;> decide
  | linkFacebook => decide
  | linkLinkedin => decide

theorem requestType_chosen_iff (caller : SignInCaller) :
    caller.requestType.toText = caller.chosen ↔ ∀ type, caller ≠ .dialog .facebook type := by
  cases caller with
  | dialog provider type =>
    cases provider with
    | facebook =>
      refine iff_of_false ?_ (fun h => h type rfl)
      cases type <;> decide
    | google => exact iff_of_true rfl nofun
    | linkedin => exact iff_of_true rfl nofun
  | sessionFacebook type =>
    refine iff_of_true ?_ nofun
    cases type <;> decide
  | linkFacebook => exact iff_of_true rfl nofun
  | linkLinkedin => exact iff_of_true rfl nofun

theorem state_eq (caller : SignInCaller) (redirectTo : String) (locale : Locale) :
    caller.state redirectTo locale =
      some ("redirect=" ++ Text.upTo '?' redirectTo ++ "&provider=" ++ caller.provider.name ++ "&type=" ++
        caller.requestType.toText ++ "&ln=" ++ locale.name) := by
  have hnull : caller.requestType ≠ .null := by
    cases caller with
    | dialog provider type => cases provider <;> nofun
    | _ => nofun
  rw [state, getAuthenticationState, Percent.decode_encode]
  -- unfolding by the equation of `stateText` makes Lean compare the literals character by character
  delta stateText
  rw [if_neg hnull]

end SignInCaller

open OauthServicesController in
theorem oauth_state_round_trips_iff (caller : SignInCaller) (redirectTo : String) (locale : Locale) :
    RoundTrips caller redirectTo locale ↔ ∀ type, caller ≠ .dialog .facebook type := by
  obtain ⟨hprovider, htype, hln⟩ := stateParam_tail ("redirect=" ++ Text.upTo '?' redirectTo) caller.provider.name_whole
    caller.requestType_whole locale.name_whole
  rw [← caller.requestType_chosen_iff, RoundTrips, caller.state_eq]
  constructor
  · rintro ⟨state, hstate, -, hchosen, -⟩
    cases hstate
    rw [htype] at hchosen
    exact Option.some.inj hchosen
  · intro hchosen
    refine ⟨_, rfl, hprovider, hchosen ▸ htype, hln, ?_⟩
    intro hpath
    rw [upTo_of_not_mem hpath.2.1]
    exact stateParam_redirect ⟨hpath.1, hpath.2.2⟩ caller.provider.name_whole caller.requestType_whole
      locale.name_whole

/-- A user who chooses to sign in with Facebook in the dialog is sent through
the sign-up branch. -/
theorem dialog_facebook_type_lost :
    ∃ state, (SignInCaller.dialog .facebook .signin).state "/requests" .en = some state ∧
      OauthServicesController.stateParam state "type" = some "[object Object]" ∧
      (SignInCaller.dialog .facebook .signin).chosen = "signin" :=
  ⟨_, SignInCaller.state_eq _ _ _, by decide +kernel, rfl⟩

end Blnkk

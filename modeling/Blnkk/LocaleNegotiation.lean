import Blnkk.Pieces

/-!
The language of a page: `ApplicationController#set_defaults`, which shows the
page or redirects to another `ln` parameter.
-/

namespace Blnkk

namespace I18n

def availableLocales : List String := ["en", "zh-TW", "zh-CN"]

def defaultLocale : String := "en"

end I18n

/-- The values of `LOCALE_PRIMARY` and `LOCALE_SECONDARY`, texts without any
restriction or null. -/
structure LocaleSettings where
  primary : Option String
  secondary : Option String
  deriving DecidableEq

inductive LnParam where
  | absent
  | text (ln : String)
  -- an array, a hash or bytes that are no text, for which `to_sym` raises
  | malformed
  deriving DecidableEq

inductive LocaleOutcome where
  | locale (ln : String)
  | redirect (ln : String)
  deriving DecidableEq

def regionTag : List Char → Option String
  | a :: b :: '-' :: c :: d :: _ =>
    if a.isLower && b.isLower && c.isUpper && d.isUpper then some (String.ofList [a, b, '-', c, d]) else none
  | _ => none

def languageTag : List Char → Option String
  | a :: b :: _ => if a.isLower && b.isLower then some (String.ofList [a, b]) else none
  | _ => none

/-- The matches of `/^[a-z]{2}-[A-Z]{2}/`, at most one for each line. -/
def scanRegions (header : String) : List String := (Text.splitChars '\n' header.toList).filterMap regionTag

/-- The matches of `/^[a-z]{2}/`. -/
def scanLanguages (header : String) : List String := (Text.splitChars '\n' header.toList).filterMap languageTag

namespace LocaleSettings

variable (s : LocaleSettings) (header : Option String)

def localePrimary : String := s.primary.getD I18n.defaultLocale

def localeSecondary : Option String := s.secondary

def accepts (ln : String) : Bool :=
  I18n.availableLocales.contains ln && (s.localePrimary == ln || s.localeSecondary == some ln)

def detectFrom (locale : String) (found : List String) : String :=
  found.foldl (fun locale l => if s.accepts l then l else locale) locale

def detectLocale : String :=
  match header with
  | none => s.localePrimary
  | some header =>
    if Text.present header then
      s.detectFrom (s.detectFrom s.localePrimary (scanRegions header)) (scanLanguages header)
    else s.localePrimary

def setDefaults : LnParam → LocaleOutcome
  | .absent => .redirect (s.detectLocale header)
  | .text ln => if Text.present ln && s.accepts ln then .locale ln else .redirect (s.detectLocale header)
  | .malformed => .redirect s.localePrimary

/-- The `ln` parameter after at most so many redirects. -/
def follow : ℕ → LnParam → LnParam
  | 0, ln => ln
  | n + 1, ln =>
    match s.setDefaults header ln with
    | .locale _ => ln
    | .redirect ln' => follow n (.text ln')

end LocaleSettings

section Accepted

variable (s : LocaleSettings)

theorem present_of_available {ln : String} (h : ln ∈ I18n.availableLocales) : Text.present ln = true := by
  revert ln
  decide

theorem accepts_iff (ln : String) :
    s.accepts ln = true ↔ ln ∈ I18n.availableLocales ∧ (s.localePrimary = ln ∨ s.secondary = some ln) := by
  simp [LocaleSettings.accepts, LocaleSettings.localeSecondary]

theorem accepts_primary : s.accepts s.localePrimary = true ↔ s.localePrimary ∈ I18n.availableLocales := by
  simp [accepts_iff]

theorem setDefaults_text (header : Option String) (ln : String) :
    s.setDefaults header (.text ln) = if s.accepts ln then .locale ln else .redirect (s.detectLocale header) := by
  simp only [LocaleSettings.setDefaults, Bool.and_eq_true]
  by_cases h : s.accepts ln = true
  · rw [if_pos h, if_pos ⟨present_of_available ((accepts_iff s ln).mp h).1, h⟩]
  · rw [if_neg h, if_neg (fun hp => h hp.2)]

/-- The last acceptable proposal wins. -/
theorem accepts_detectFrom (locale : String) (found : List String) :
    s.accepts (s.detectFrom locale found) = true ↔
      s.accepts locale = true ∨ ∃ l ∈ found, s.accepts l = true := by
  induction found generalizing locale with
  | nil => simp [LocaleSettings.detectFrom]
  | cons l found ih =>
    rw [LocaleSettings.detectFrom, List.foldl_cons]
    change s.accepts (s.detectFrom _ found) = true ↔ _
    rw [ih]
    by_cases hl : s.accepts l = true
    · simp [hl]
    · simp [hl]

/-- A line of the header begins with the locale. -/
def Proposes (header : Option String) (ln : String) : Prop :=
  ∃ text, header = some text ∧ ∃ line ∈ Text.splitChars '\n' text.toList, ln.toList <+: line

theorem regionTag_some {line : List Char} {ln : String} (h : regionTag line = some ln) : ln.toList <+: line := by
  unfold regionTag at h
  split at h
  · split_ifs at h
    cases h
    simp
  · cases h

theorem languageTag_some {line : List Char} {ln : String} (h : languageTag line = some ln) : ln.toList <+: line := by
  unfold languageTag at h
  split at h
  · split_ifs at h
    cases h
    simp
  · cases h

theorem tag_iff {ln : String} (h : ln ∈ I18n.availableLocales) (line : List Char) :
    (regionTag line = some ln ∨ languageTag line = some ln) ↔ ln.toList <+: line := by
  constructor
  · rintro (hr | hl)
    · exact regionTag_some hr
    · exact languageTag_some hl
  · rintro ⟨rest, rfl⟩
    simp only [I18n.availableLocales, List.mem_cons, List.not_mem_nil, or_false] at h
    rcases h with rfl | rfl | rfl
    · exact Or.inr rfl
    · exact Or.inl rfl
    · exact Or.inl rfl

theorem mem_scans_iff {ln : String} (h : ln ∈ I18n.availableLocales) (header : String) :
    (ln ∈ scanRegions header ∨ ln ∈ scanLanguages header) ↔
      ∃ line ∈ Text.splitChars '\n' header.toList, ln.toList <+: line := by
  simp only [scanRegions, scanLanguages, List.mem_filterMap, ← exists_or, ← and_or_left, tag_iff h]

theorem present_of_proposes {ln header : String} (h : ln ∈ I18n.availableLocales)
    (hp : Proposes (some header) ln) : Text.present header = true := by
  obtain ⟨text, htext, line, hline, hstart⟩ := hp
  cases htext
  obtain ⟨c, hc, hspace⟩ := List.any_eq_true.mp (present_of_available h)
  exact List.any_eq_true.mpr ⟨c, Text.mem_of_mem_splitChars hline (hstart.subset hc), hspace⟩

theorem accepts_detectLocale (header : Option String) :
    s.accepts (s.detectLocale header) = true ↔
      s.localePrimary ∈ I18n.availableLocales ∨ ∃ ln, s.accepts ln = true ∧ Proposes header ln := by
  rw [← accepts_primary]
  cases header with
  | none =>
    have hno : ¬ ∃ ln, s.accepts ln = true ∧ Proposes none ln := by
      rintro ⟨ln, -, text, htext, -⟩
      cases htext
    simp only [LocaleSettings.detectLocale, hno, or_false]
  | some header =>
    have hfound : (∃ ln, s.accepts ln = true ∧ Proposes (some header) ln) ↔
        (∃ ln ∈ scanRegions header, s.accepts ln = true) ∨ ∃ ln ∈ scanLanguages header, s.accepts ln = true := by
      rw [← exists_or]
      apply exists_congr
      intro ln
      rw [← or_and_right, and_comm]
      refine and_congr_left (fun ha => ?_)
      rw [mem_scans_iff ((accepts_iff s ln).mp ha).1]
      simp [Proposes]
    simp only [LocaleSettings.detectLocale]
    split_ifs with hpresent
    · rw [accepts_detectFrom, accepts_detectFrom, hfound, or_assoc]
    · have hno : ¬ ∃ ln, s.accepts ln = true ∧ Proposes (some header) ln := by
        rintro ⟨ln, ha, hp⟩
        exact hpresent (present_of_proposes ((accepts_iff s ln).mp ha).1 hp)
      simp only [hno, or_false]

end Accepted

section Negotiation

variable (s : LocaleSettings) (header : Option String)

theorem shown_text_iff (ln : String) :
    (∃ l, s.setDefaults header (.text ln) = .locale l) ↔ s.accepts ln = true := by
  rw [setDefaults_text]
  split_ifs with h <;> simp [h]

theorem follow_redirect {ln : LnParam} {l : String} (h : s.setDefaults header ln = .redirect l) (n : ℕ) :
    s.follow header (n + 1) ln = s.follow header n (.text l) := by
  rw [LocaleSettings.follow, h]

theorem ends_at_once_iff {ln : LnParam} {l : String} (h : s.setDefaults header ln = .redirect l) :
    (∃ n ≤ 1, ∃ shown, s.setDefaults header (s.follow header n ln) = .locale shown) ↔ s.accepts l = true := by
  rw [← shown_text_iff s header]
  constructor
  · rintro ⟨n, hle, shown, hshown⟩
    rcases Nat.le_one_iff_eq_zero_or_eq_one.mp hle with rfl | rfl
    · rw [LocaleSettings.follow, h] at hshown
      cases hshown
    · rw [follow_redirect s header h] at hshown
      exact ⟨shown, hshown⟩
  · rintro ⟨shown, hshown⟩
    exact ⟨1, Nat.le_refl 1, shown, by rw [follow_redirect s header h]; exact hshown⟩

/-- A proposal that is not accepted is made again and again. -/
theorem redirects_for_ever {ln : LnParam} (h : s.setDefaults header ln = .redirect (s.detectLocale header))
    (hd : ¬ s.accepts (s.detectLocale header) = true) (n : ℕ) :
    s.setDefaults header (s.follow header n ln) = .redirect (s.detectLocale header) := by
  induction n generalizing ln with
  | zero => exact h
  | succ n ih =>
    rw [follow_redirect s header h]
    apply ih
    rw [setDefaults_text, if_neg hd]

theorem accepts_detectLocale_iff : s.accepts (s.detectLocale header) = true ↔
    s.localePrimary ∈ I18n.availableLocales ∨
      ∃ l ∈ I18n.availableLocales, s.secondary = some l ∧ Proposes header l := by
  rw [accepts_detectLocale]
  constructor
  · rintro (hp | ⟨l, ha, hl⟩)
    · exact Or.inl hp
    · obtain ⟨havail, rfl | hs⟩ := (accepts_iff s l).mp ha
      · exact Or.inl havail
      · exact Or.inr ⟨l, havail, hs, hl⟩
  · rintro (hp | ⟨l, havail, hs, hl⟩)
    · exact Or.inl hp
    · exact Or.inr ⟨l, (accepts_iff s l).mpr ⟨havail, Or.inr hs⟩, hl⟩

/-- The negotiation ends with the first redirect exactly if the primary locale is
available, or the secondary one is and is asked for by the parameter or, behind
a parameter that can be read, by the header. -/
theorem negotiation_ends_iff (ln : LnParam) :
    (∃ n ≤ 1, ∃ shown, s.setDefaults header (s.follow header n ln) = .locale shown) ↔
      s.localePrimary ∈ I18n.availableLocales ∨
        ∃ l ∈ I18n.availableLocales, s.secondary = some l ∧
          (ln = .text l ∨ (ln ≠ .malformed ∧ Proposes header l)) := by
  cases ln with
  | absent =>
    rw [ends_at_once_iff s header rfl, accepts_detectLocale_iff]
    simp
  | malformed =>
    rw [ends_at_once_iff s header rfl, accepts_primary]
    simp
  | text ln =>
    by_cases ha : s.accepts ln = true
    · obtain ⟨havail, hset⟩ := (accepts_iff s ln).mp ha
      have hshown : s.setDefaults header (.text ln) = .locale ln := by
        rw [setDefaults_text, if_pos ha]
      refine iff_of_true ⟨0, Nat.zero_le 1, ln, hshown⟩ ?_
      rcases hset with rfl | hs
      · exact Or.inl havail
      · exact Or.inr ⟨ln, havail, hs, Or.inl rfl⟩
    · have hsent : s.setDefaults header (.text ln) = .redirect (s.detectLocale header) := by
        rw [setDefaults_text, if_neg ha]
      rw [ends_at_once_iff s header hsent, accepts_detectLocale_iff]
      refine or_congr_right (exists_congr (fun l => ?_))
      refine and_congr_right (fun havail => and_congr_right (fun hs => ?_))
      -- the parameter itself is not accepted, so it is not the secondary locale
      have hne : ln ≠ l := by
        rintro rfl
        exact ha ((accepts_iff s ln).mpr ⟨havail, Or.inr hs⟩)
      simp [hne]

end Negotiation

/-- French as the only language of the site sends every visitor round in circles. -/
theorem unavailable_primary_loops :
    LocaleSettings.detectLocale ⟨some "fr", none⟩ (some "fr-FR,fr;q=0.8") = "fr" ∧
      ∀ n : ℕ, LocaleSettings.setDefaults ⟨some "fr", none⟩ (some "fr-FR,fr;q=0.8")
        (LocaleSettings.follow ⟨some "fr", none⟩ (some "fr-FR,fr;q=0.8") n .absent) = .redirect "fr" := by
  have hd : LocaleSettings.detectLocale ⟨some "fr", none⟩ (some "fr-FR,fr;q=0.8") = "fr" := by decide
  refine ⟨hd, fun n => ?_⟩
  rw [← hd]
  exact redirects_for_ever _ _ rfl (by decide) n

end Blnkk

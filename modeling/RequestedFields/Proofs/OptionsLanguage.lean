import RequestedFields.CollectOptions.OfJson
import RequestedFields.Proofs.Members

/-!
# The language of options

Options can be written in several ways: as an object or as a list, and in either each choice by its
name or as an object with that name.  This file says which JSON values are options at all, what they
say, and what every other value is refused for.

An object and a list are **the same thing to the reader**: settings, each of them a name and a
value, in the order of the text (`Json.settings`).  A list only has its names given by position, and
may be too long.  So there is one loop to be understood, and what it refuses is always the first
setting with which something is wrong, a name that is none or a value that is no choice; the length
of a list is looked at behind that loop.

None of what is said here mentions the reader.  That it does what is said follows from three things
each time: a value of the language is read as what it says, a value that is refused for something is
refused for it, and there is no third kind of value (`eq_iff_of_exhaustive`).

* `Json.Spells`, `Setting` — the values that name a choice; what a setting says, given or not.
* `Json.SaysOptions` — the options that a value says.
* `NoChoice`, `MemberRefused`, `Json.RefusedAsOptions` — what is wrong with the value of a setting,
  with a setting and with the whole.
* `Json.SaysSame` — two values that say the same in other words and in another order.
* `ofJson_exact` — the reader accepts this language and no more, reads what it says, and refuses
  everything else for the first thing that is wrong.
-/

set_option autoImplicit false

namespace RequestedFields

open CollectOptions

/-- A reader is known by what it accepts and what it refuses, if there is nothing else. -/
theorem eq_iff_of_exhaustive {ε α : Type} {result : Except ε α} {Accepted : α → Prop}
    {Refused : ε → Prop} (hok : ∀ a, Accepted a → result = .ok a)
    (herror : ∀ e, Refused e → result = .error e)
    (hall : (∃ a, Accepted a) ∨ ∃ e, Refused e) :
    (∀ a, result = .ok a ↔ Accepted a) ∧ ∀ e, result = .error e ↔ Refused e := by
  rcases hall with ⟨b, hb⟩ | ⟨f, hf⟩
  · refine ⟨fun a ↦ ⟨fun h ↦ ?_, hok a⟩, fun e ↦ ⟨fun h ↦ ?_, herror e⟩⟩
    · obtain rfl : b = a := Except.ok.inj ((hok b hb).symm.trans h)
      exact hb
    · cases (hok b hb).symm.trans h
  · refine ⟨fun a ↦ ⟨fun h ↦ ?_, hok a⟩, fun e ↦ ⟨fun h ↦ ?_, herror e⟩⟩
    · cases (herror f hf).symm.trans h
    · obtain rfl : f = e := Except.error.inj ((herror f hf).symm.trans h)
      exact hf

/-! ## Choices -/

/-- **The two ways to name a choice**: by the name alone, or by an object with nothing under it. -/
inductive Json.Spells : Json → String → Prop
  | plain (name : String) : Spells (.string name) name
  | member (name : String) : Spells (.object [(name, .null)]) name

/-- What a value that names none of the choices is refused for. -/
inductive NoChoice {α : Type} (text : α → String) (choices : String × String) :
    Json → OptionsError → Prop
  /-- There is no choice of this name. -/
  | unknownName {name : String} (h : ∀ a, name ≠ text a) :
      NoChoice text choices (.string name) (.unknownChoice name choices)
  /-- An object without a member, or with several, whatever their names. -/
  | notOneMember {members : List (String × Json)} (h : members.length ≠ 1) :
      NoChoice text choices (.object members) .notOneMember
  /-- There is no choice of the name of its only member, whatever is under it. -/
  | unknownMember {name : String} (h : ∀ a, name ≠ text a) (content : Json) :
      NoChoice text choices (.object [(name, content)]) (.unknownChoice name choices)
  /-- There is something under the name of a choice. -/
  | content (a : α) {content : Json} (h : content.kind ≠ .null) :
      NoChoice text choices (.object [(text a, content)]) (.invalidType content .nothing)
  /-- It is neither a text nor an object. -/
  | otherType {v : Json} (hstring : v.kind ≠ .string) (hobject : v.kind ≠ .object) :
      NoChoice text choices v (.invalidType v .choice)

section

variable {α : Type} {text : α → String} {ofText? : String → Option α} {choices : String × String}

theorem readName_of_eq (hof : ∀ {s a}, ofText? s = some a ↔ s = text a) (a : α) :
    readName ofText? choices (text a) = .ok a := by
  rw [readName, hof.2 rfl]

theorem readName_of_ne (hof : ∀ {s a}, ofText? s = some a ↔ s = text a) {name : String}
    (h : ∀ a, name ≠ text a) :
    readName ofText? choices name = .error (.unknownChoice name choices) := by
  have hnone : ofText? name = none :=
    Option.eq_none_iff_forall_ne_some.2 fun a ha ↦ h a (hof.1 ha)
  rw [readName, hnone]

theorem readChoice_of_spells (hof : ∀ {s a}, ofText? s = some a ↔ s = text a) {v : Json} {a : α}
    (h : v.Spells (text a)) : readChoice ofText? choices v = .ok a := by
  generalize hname : text a = name at h
  cases h with
  | plain =>
    rw [← hname]
    exact readName_of_eq hof a
  | member =>
    rw [← hname, readChoice, readName_of_eq hof a]
    rfl

theorem readChoice_of_noChoice (hof : ∀ {s a}, ofText? s = some a ↔ s = text a) {v : Json}
    {e : OptionsError} (h : NoChoice text choices v e) :
    readChoice ofText? choices v = .error e := by
  cases h with
  | unknownName hname => exact readName_of_ne hof hname
  | @notOneMember members hlength =>
    rcases members with _ | ⟨member, _ | ⟨other, members⟩⟩
    · rfl
    · exact absurd rfl hlength
    · rfl
  | unknownMember hname content =>
    rw [readChoice, readName_of_ne hof hname]
    rfl
  | @content a content hcontent =>
    rw [readChoice, readName_of_eq hof a]
    cases content with
    | null => exact absurd rfl hcontent
    | _ => rfl
  | otherType hstring hobject =>
    cases v with
    | string name => exact absurd rfl hstring
    | object members => exact absurd rfl hobject
    | _ => rfl

/-- A value names a choice, or there is something that it is refused for. -/
theorem spells_or_noChoice (text : α → String) (choices : String × String) (v : Json) :
    (∃ a, v.Spells (text a)) ∨ ∃ e, NoChoice text choices v e := by
  cases v with
  | string name =>
    by_cases h : ∃ a, name = text a
    · obtain ⟨a, rfl⟩ := h
      exact .inl ⟨a, .plain _⟩
    · exact .inr ⟨_, .unknownName (not_exists.1 h)⟩
  | object members =>
    rcases members with _ | ⟨⟨name, content⟩, _ | ⟨other, members⟩⟩
    · exact .inr ⟨_, .notOneMember (by simp)⟩
    · by_cases h : ∃ a, name = text a
      · obtain ⟨a, rfl⟩ := h
        cases content with
        | null => exact .inl ⟨a, .member _⟩
        | _ => exact .inr ⟨_, .content a (by simp [Json.kind])⟩
      · exact .inr ⟨_, .unknownMember (not_exists.1 h) content⟩
    · exact .inr ⟨_, .notOneMember (by simp)⟩
  | _ => exact .inr ⟨_, .otherType (by simp [Json.kind]) (by simp [Json.kind])⟩

theorem exists_spells {v : Json} (h : ∀ e, ¬ NoChoice text choices v e) :
    ∃ a, v.Spells (text a) :=
  (spells_or_noChoice text choices v).resolve_right (not_exists.2 h)

end

/-! ## Settings -/

/-- The names of the settings, in the order in which a list gives them. -/
def settingNames : List String := ["key", "inline_fragments"]

/-- The settings of an object or a list, in the order of the text. -/
def Json.settings : Json → List (String × Json)
  | .object members => members
  | .list elements => settingNames.zip elements
  | _ => []

/-- The value that is given for a setting. -/
def valueOf? (name : String) (settings : List (String × Json)) : Option Json :=
  (lookup Prod.fst name settings).map Prod.snd

/-- **What a setting says**: the choice that is named, or, without a value, what there is
already. -/
inductive Setting {α : Type} (text : α → String) (already : α) : Option Json → α → Prop
  | missing : Setting text already none already
  | given {v : Json} {a : α} (h : v.Spells (text a)) : Setting text already (some v) a

/-- What a setting is refused for: its name, or a value that names no choice. -/
inductive MemberRefused : String × Json → OptionsError → Prop
  | unknown {name : String} (h : name ∉ settingNames) (v : Json) :
      MemberRefused (name, v) (.unknownMember name)
  | key {v : Json} {e : OptionsError}
      (h : NoChoice KeyChoice.text (KeyChoice.name.text, KeyChoice.responseKey.text) v e) :
      MemberRefused ("key", v) e
  | inlineFragments {v : Json} {e : OptionsError}
      (h : NoChoice InlineMode.text (InlineMode.skip.text, InlineMode.expand.text) v e) :
      MemberRefused ("inline_fragments", v) e

theorem nodup_zip_settingNames (elements : List Json) :
    ((settingNames.zip elements).map Prod.fst).Nodup := by
  rcases elements with _ | ⟨first, _ | ⟨second, more⟩⟩ <;> simp [settingNames]

theorem mem_settingNames_iff {name : String} :
    name ∈ settingNames ↔ name = "key" ∨ name = "inline_fragments" := by
  simp [settingNames]

theorem valueOf?_cons_self (name : String) (v : Json) (settings : List (String × Json)) :
    valueOf? name ((name, v) :: settings) = some v := by
  rw [valueOf?, lookup_cons, if_pos rfl]
  rfl

theorem valueOf?_cons_of_ne {name other : String} (h : other ≠ name) (v : Json)
    (settings : List (String × Json)) :
    valueOf? name ((other, v) :: settings) = valueOf? name settings := by
  rw [valueOf?, lookup_cons, if_neg h, valueOf?]

theorem valueOf?_eq_none_iff {name : String} {settings : List (String × Json)} :
    valueOf? name settings = none ↔ name ∉ settings.map Prod.fst := by
  rw [valueOf?, Option.map_eq_none_iff, lookup_eq_none_iff]

theorem mem_of_valueOf? {name : String} {v : Json} {settings : List (String × Json)}
    (h : valueOf? name settings = some v) : (name, v) ∈ settings := by
  obtain ⟨⟨other, w⟩, hfound, rfl⟩ := Option.map_eq_some_iff.1 h
  obtain rfl : other = name := key_of_lookup Prod.fst hfound
  exact mem_of_lookup Prod.fst hfound

theorem readKey_of_spells {v : Json} {a : KeyChoice} (h : v.Spells a.text) : readKey v = .ok a :=
  readChoice_of_spells KeyChoice.ofText?_eq_some_iff h

theorem readInlineFragments_of_spells {v : Json} {a : InlineMode} (h : v.Spells a.text) :
    readInlineFragments v = .ok a :=
  readChoice_of_spells InlineMode.ofText?_eq_some_iff h

theorem readMember_of_memberRefused (o : CollectOptions) {m : String × Json} {e : OptionsError}
    (h : MemberRefused m e) : readMember o m = .error e := by
  cases h with
  | @unknown name hname v =>
    rw [mem_settingNames_iff, not_or] at hname
    rw [readMember]
    · rfl
    · exact hname.1
    · exact hname.2
  | @key v _ hv =>
    have hread : readKey v = .error e := readChoice_of_noChoice KeyChoice.ofText?_eq_some_iff hv
    rw [readMember, hread]
    rfl
  | @inlineFragments v _ hv =>
    have hread : readInlineFragments v = .error e :=
      readChoice_of_noChoice InlineMode.ofText?_eq_some_iff hv
    rw [readMember, hread]
    rfl

/-- A setting that is not refused for anything is read. -/
theorem exists_readMember (o : CollectOptions) {m : String × Json}
    (hfine : ∀ e, ¬ MemberRefused m e) : ∃ o', readMember o m = .ok o' := by
  obtain ⟨name, v⟩ := m
  by_cases hname : name ∈ settingNames
  · rcases mem_settingNames_iff.1 hname with rfl | rfl
    · obtain ⟨a, ha⟩ := exists_spells fun e h ↦ hfine e (.key h)
      exact ⟨o.withKey a, by rw [readMember, readKey_of_spells ha]; rfl⟩
    · obtain ⟨a, ha⟩ := exists_spells fun e h ↦ hfine e (.inlineFragments h)
      exact ⟨o.withInlineFragments a, by rw [readMember, readInlineFragments_of_spells ha]; rfl⟩
  · exact absurd (.unknown hname v) (hfine _)

/-! ## The loop over the settings -/

/-- What settings say, in any order: all of them are settings, each says what becomes of it. -/
structure SettingsSay (settings : List (String × Json)) (o o' : CollectOptions) : Prop where
  /-- There are no others. -/
  names : ∀ m ∈ settings, m.1 ∈ settingNames
  key : Setting KeyChoice.text o.key (valueOf? "key" settings) o'.key
  inlineFragments : Setting InlineMode.text o.inlineFragments
    (valueOf? "inline_fragments" settings) o'.inlineFragments

/-- A setting that is given first and not again: its value names the choice, and the others leave
that as it is. -/
theorem Setting.of_cons {α : Type} {text : α → String} {already a : α} {name : String} {v : Json}
    {settings : List (String × Json)} (hnot : name ∉ settings.map Prod.fst)
    (h : Setting text already (valueOf? name ((name, v) :: settings)) a) :
    v.Spells (text a) ∧ Setting text a (valueOf? name settings) a := by
  rw [valueOf?_cons_self] at h
  rw [valueOf?_eq_none_iff.2 hnot]
  cases h with
  | given hspells => exact ⟨hspells, .missing⟩

/-- **The loop reads what the settings say**, if none of them is given twice. -/
theorem SettingsSay.foldlM_eq {settings : List (String × Json)} {o o' : CollectOptions}
    (h : SettingsSay settings o o') (hnames : (settings.map Prod.fst).Nodup) :
    settings.foldlM readMember o = .ok o' := by
  induction settings generalizing o with
  | nil =>
    obtain ⟨key, inlineFragments⟩ := o
    obtain ⟨key', inlineFragments'⟩ := o'
    have hkey : Setting KeyChoice.text key none key' := h.key
    have hinline : Setting InlineMode.text inlineFragments none inlineFragments' :=
      h.inlineFragments
    cases hkey
    cases hinline
    rfl
  | cons m settings ih =>
    obtain ⟨name, v⟩ := m
    rw [List.map_cons, List.nodup_cons] at hnames
    obtain ⟨hnot, hnames⟩ := hnames
    obtain ⟨hall, hkey, hinline⟩ := h
    obtain ⟨hname, hrest⟩ := List.forall_mem_cons.1 hall
    rw [List.foldlM_cons]
    rcases mem_settingNames_iff.1 hname with rfl | rfl
    · obtain ⟨hspells, hkept⟩ := hkey.of_cons hnot
      rw [valueOf?_cons_of_ne (by decide)] at hinline
      have hnext : SettingsSay settings (o.withKey o'.key) o' := ⟨hrest, hkept, hinline⟩
      rw [readMember, readKey_of_spells hspells]
      exact ih hnext hnames
    · obtain ⟨hspells, hkept⟩ := hinline.of_cons hnot
      rw [valueOf?_cons_of_ne (by decide)] at hkey
      have hnext : SettingsSay settings (o.withInlineFragments o'.inlineFragments) o' :=
        ⟨hrest, hkey, hkept⟩
      rw [readMember, readInlineFragments_of_spells hspells]
      exact ih hnext hnames

theorem exists_setting {α : Type} (text : α → String) (already : α) {value? : Option Json}
    (h : ∀ v, value? = some v → ∃ a, v.Spells (text a)) : ∃ a, Setting text already value? a := by
  cases value? with
  | none => exact ⟨already, .missing⟩
  | some v =>
    obtain ⟨a, ha⟩ := h v rfl
    exact ⟨a, .given ha⟩

/-- Settings that are not refused for anything say something. -/
theorem exists_settingsSay {settings : List (String × Json)} (o : CollectOptions)
    (hfine : ∀ m ∈ settings, ∀ e, ¬ MemberRefused m e) : ∃ o', SettingsSay settings o o' := by
  have hnames : ∀ m ∈ settings, m.1 ∈ settingNames := by
    intro m hm
    by_cases hname : m.1 ∈ settingNames
    · exact hname
    · exact absurd (.unknown hname m.2) (hfine m hm _)
  obtain ⟨key, hkey⟩ := exists_setting KeyChoice.text o.key fun v hv ↦
    exists_spells fun e h ↦ hfine _ (mem_of_valueOf? hv) e (.key h)
  obtain ⟨mode, hmode⟩ := exists_setting InlineMode.text o.inlineFragments fun v hv ↦
    exists_spells fun e h ↦ hfine _ (mem_of_valueOf? hv) e (.inlineFragments h)
  exact ⟨⟨key, mode⟩, hnames, hkey, hmode⟩

/-- **The loop stops at the first setting that is refused**, for what that one is refused for. -/
theorem foldlM_readMember_of_refused {before behind : List (String × Json)} {m : String × Json}
    {e : OptionsError} (hbefore : ∀ m' ∈ before, ∀ e', ¬ MemberRefused m' e')
    (h : MemberRefused m e) (o : CollectOptions) :
    (before ++ m :: behind).foldlM readMember o = .error e := by
  induction before generalizing o with
  | nil =>
    rw [List.nil_append, List.foldlM_cons, readMember_of_memberRefused o h]
    rfl
  | cons first before ih =>
    obtain ⟨hfirst, hbefore⟩ := List.forall_mem_cons.1 hbefore
    obtain ⟨o', ho'⟩ := exists_readMember o hfirst
    rw [List.cons_append, List.foldlM_cons, ho']
    exact ih hbefore o'

/-- Either nothing is refused, or the settings can be cut in front of the first that is. -/
theorem exists_first_refused (settings : List (String × Json)) :
    (∀ m ∈ settings, ∀ e, ¬ MemberRefused m e) ∨
      ∃ before m behind e, settings = before ++ m :: behind ∧
        (∀ m' ∈ before, ∀ e', ¬ MemberRefused m' e') ∧ MemberRefused m e := by
  induction settings with
  | nil => exact .inl fun _ h ↦ absurd h List.not_mem_nil
  | cons m settings ih =>
    by_cases hm : ∃ e, MemberRefused m e
    · obtain ⟨e, he⟩ := hm
      exact .inr ⟨[], m, settings, e, rfl, fun _ h ↦ absurd h List.not_mem_nil, he⟩
    · have hfirst : ∀ e, ¬ MemberRefused m e := not_exists.1 hm
      rcases ih with hnone | ⟨before, m', behind, e, rfl, hbefore, he⟩
      · exact .inl (List.forall_mem_cons.2 ⟨hfirst, hnone⟩)
      · exact .inr ⟨m :: before, m', behind, e, rfl, List.forall_mem_cons.2 ⟨hfirst, hbefore⟩, he⟩

/-! ## Options -/

/-- An object, or a list of at most two elements. -/
def Json.HoldsSettings (v : Json) : Prop :=
  v.isObject = true ∨ ∃ elements, v = .list elements ∧ elements.length ≤ 2

/-- **The options that a value says**: each setting as it is given, or as it is by default. -/
structure Json.SaysOptions (v : Json) (o : CollectOptions) : Prop where
  holds : v.HoldsSettings
  settings : SettingsSay v.settings .default o

/-- **What a value that says no options is refused for.** -/
inductive Json.RefusedAsOptions : Json → OptionsError → Prop
  /-- The first of its settings that is refused. -/
  | setting {v : Json} {before behind : List (String × Json)} {m : String × Json}
      {e : OptionsError} (hcut : v.settings = before ++ m :: behind)
      (hbefore : ∀ m' ∈ before, ∀ e', ¬ MemberRefused m' e') (h : MemberRefused m e) :
      v.RefusedAsOptions e
  /-- There is nothing wrong with the first two elements of a list, but there are others. -/
  | tooLong {elements : List Json}
      (hfine : ∀ m ∈ settingNames.zip elements, ∀ e, ¬ MemberRefused m e)
      (hlength : 2 < elements.length) :
      (Json.list elements).RefusedAsOptions (.tooLong elements.length)
  /-- It is neither an object nor a list. -/
  | otherType {v : Json} (h : v.isContainer = false) :
      v.RefusedAsOptions (.invalidType v .options)

/-- A value without a repeated name gives no setting twice. -/
theorem Json.WellFormed.nodup_settings {v : Json} (h : v.WellFormed) :
    (v.settings.map Prod.fst).Nodup := by
  cases h with
  | @scalar v hscalar =>
    cases v with
    | list elements => cases hscalar
    | object members => cases hscalar
    | _ => exact .nil
  | @list elements => exact nodup_zip_settingNames elements
  | object hnames => exact hnames

theorem Json.WellFormed.of_perm {members members' : List (String × Json)}
    (h : (Json.object members).WellFormed) (hperm : members.Perm members') :
    (Json.object members').WellFormed := by
  cases h with
  | scalar hscalar => cases hscalar
  | object hnames hmembers =>
    exact .object ((hperm.map Prod.fst).nodup_iff.1 hnames)
      fun m hm ↦ hmembers m (hperm.mem_iff.2 hm)

/-- A list is read as its first two elements are, each under its name, and then measured. -/
theorem ofJson_list (elements : List Json) :
    ofJson (.list elements)
      = (settingNames.zip elements).foldlM readMember .default >>= fun o ↦
          if 2 < elements.length then .error (.tooLong elements.length) else .ok o := by
  rcases elements with _ | ⟨first, _ | ⟨second, more⟩⟩
  · rfl
  · have hzip : settingNames.zip [first] = [("key", first)] := rfl
    rw [ofJson, hzip, List.foldlM_cons, readMember]
    cases readKey first <;> rfl
  · have hzip : settingNames.zip (first :: second :: more)
        = [("key", first), ("inline_fragments", second)] := rfl
    rw [ofJson, hzip, List.foldlM_cons, readMember]
    cases readKey first with
    | error e => rfl
    | ok key =>
      change _ = List.foldlM readMember _ [("inline_fragments", second)] >>= _
      rw [List.foldlM_cons, readMember]
      cases readInlineFragments second with
      | error e => rfl
      | ok mode => cases more <;> rfl

/-- **What a value says is read.** -/
theorem ofJson_of_saysOptions {v : Json} (hv : v.WellFormed) {o : CollectOptions}
    (h : v.SaysOptions o) : ofJson v = .ok o := by
  have hloop := h.settings.foldlM_eq hv.nodup_settings
  rcases h.holds with hobject | ⟨elements, rfl, hlength⟩
  · obtain ⟨members, rfl⟩ := Json.isObject_iff.1 hobject
    exact hloop
  · have hloop' : (settingNames.zip elements).foldlM readMember .default = .ok o := hloop
    rw [ofJson_list, hloop']
    exact if_neg (Nat.not_lt.2 hlength)

/-- **What is refused for something is refused for it.** -/
theorem ofJson_of_refusedAsOptions {v : Json} {e : OptionsError} (h : v.RefusedAsOptions e) :
    ofJson v = .error e := by
  cases h with
  | @setting _ before behind m _ hcut hbefore hm =>
    have hloop : (before ++ m :: behind).foldlM readMember .default = .error e :=
      foldlM_readMember_of_refused hbefore hm .default
    rw [← hcut] at hloop
    cases v with
    | object members => exact hloop
    | list elements =>
      have hloop' : (settingNames.zip elements).foldlM readMember .default = .error e := hloop
      rw [ofJson_list, hloop']
      rfl
    | _ => exact absurd hcut.symm (List.append_ne_nil_of_right_ne_nil before (by simp))
  | @tooLong elements hfine hlength =>
    obtain ⟨o, ho⟩ := exists_settingsSay .default hfine
    rw [ofJson_list, ho.foldlM_eq (nodup_zip_settingNames elements)]
    exact if_pos hlength
  | otherType hscalar =>
    cases v with
    | object members => cases hscalar
    | list elements => cases hscalar
    | _ => rfl

/-- A value says options, or there is something that it is refused for. -/
theorem saysOptions_or_refusedAsOptions (v : Json) :
    (∃ o, v.SaysOptions o) ∨ ∃ e, v.RefusedAsOptions e := by
  rcases exists_first_refused v.settings with hfine | ⟨before, m, behind, e, hcut, hbefore, hm⟩
  · obtain ⟨o, ho⟩ := exists_settingsSay .default hfine
    cases v with
    | object members => exact .inl ⟨o, .inl rfl, ho⟩
    | list elements =>
      by_cases hlength : 2 < elements.length
      · exact .inr ⟨_, .tooLong hfine hlength⟩
      · exact .inl ⟨o, .inr ⟨elements, rfl, Nat.not_lt.1 hlength⟩, ho⟩
    | _ => exact .inr ⟨_, .otherType rfl⟩
  · exact .inr ⟨e, .setting hcut hbefore hm⟩

/-! ## Other words and another order -/

/-- Two values of a setting that are one and the same, or name the same choice. -/
def Json.SpellsSame (v w : Json) : Prop := v = w ∨ ∃ name, v.Spells name ∧ w.Spells name

/-- **Two values that say the same.**  Their settings may stand in different orders, one of them may
be an object and the other a list, and a choice may be named in both ways. -/
structure Json.SaysSame (v w : Json) : Prop where
  left : v.HoldsSettings
  right : w.HoldsSettings
  /-- What is given in one is given in the other. -/
  values (name : String) :
    Option.Rel SpellsSame (valueOf? name v.settings) (valueOf? name w.settings)

theorem Json.Spells.unique {v : Json} {name name' : String} (h : v.Spells name)
    (h' : v.Spells name') : name = name' := by
  cases h <;> cases h' <;> rfl

theorem Json.SpellsSame.symm {v w : Json} (h : v.SpellsSame w) : w.SpellsSame v := by
  rcases h with rfl | ⟨name, hv, hw⟩
  · exact .inl rfl
  · exact .inr ⟨name, hw, hv⟩

theorem Json.SpellsSame.rel_symm {v? w? : Option Json} (h : Option.Rel SpellsSame v? w?) :
    Option.Rel SpellsSame w? v? := by
  cases h with
  | some hsame => exact .some hsame.symm
  | none => exact .none

theorem Json.SaysSame.symm {v w : Json} (h : v.SaysSame w) : w.SaysSame v where
  left := h.right
  right := h.left
  values name := SpellsSame.rel_symm (h.values name)

/-- What is given in one of two values that say the same is given in the other. -/
theorem Json.SaysSame.mem_map {v w : Json} (h : v.SaysSame w) {name : String}
    (hname : name ∈ w.settings.map Prod.fst) : name ∈ v.settings.map Prod.fst := by
  by_cases hgiven : name ∈ v.settings.map Prod.fst
  · exact hgiven
  · have hrel := h.values name
    rw [valueOf?_eq_none_iff.2 hgiven] at hrel
    generalize hvalue : valueOf? name w.settings = value? at hrel
    cases hrel
    exact absurd hname (valueOf?_eq_none_iff.1 hvalue)

theorem Setting.congr {α : Type} {text : α → String} {already a : α} {value? value'? : Option Json}
    (hvalues : Option.Rel Json.SpellsSame value? value'?) (h : Setting text already value? a) :
    Setting text already value'? a := by
  cases h with
  | missing =>
    cases hvalues
    exact .missing
  | given hv =>
    cases hvalues with
    | some hsame =>
      rcases hsame with rfl | ⟨name, hname, hw⟩
      · exact .given hv
      · obtain rfl := hv.unique hname
        exact .given hw

/-- **Values that say the same say the same options.** -/
theorem Json.SaysOptions.of_saysSame {v w : Json} {o : CollectOptions} (h : v.SaysOptions o)
    (hsame : v.SaysSame w) : w.SaysOptions o := by
  refine ⟨hsame.right, fun m hm ↦ ?_, h.settings.key.congr (hsame.values _),
    h.settings.inlineFragments.congr (hsame.values _)⟩
  obtain ⟨m', hm', hname⟩ := List.mem_map.1 (hsame.mem_map (List.mem_map_of_mem hm))
  exact hname ▸ h.settings.names m' hm'

theorem valueOf?_eq_some_iff {settings : List (String × Json)}
    (hnames : (settings.map Prod.fst).Nodup) {name : String} {v : Json} :
    valueOf? name settings = some v ↔ (name, v) ∈ settings := by
  refine ⟨mem_of_valueOf?, fun h ↦ ?_⟩
  rw [valueOf?, (mem_iff_lookup hnames).1 h]
  rfl

/-- The members of an object in another order say the same. -/
theorem saysSame_of_perm {members members' : List (String × Json)}
    (hnames : (members.map Prod.fst).Nodup) (h : members.Perm members') :
    (Json.object members).SaysSame (.object members') := by
  have hnames' : (members'.map Prod.fst).Nodup := (h.map Prod.fst).nodup_iff.1 hnames
  refine ⟨.inl rfl, .inl rfl, fun name ↦ ?_⟩
  have heq : valueOf? name members = valueOf? name members' := by
    refine Option.ext fun v ↦ ?_
    rw [valueOf?_eq_some_iff hnames, valueOf?_eq_some_iff hnames', h.mem_iff]
  change Option.Rel _ (valueOf? name members) (valueOf? name members')
  rw [heq]
  cases valueOf? name members' with
  | none => exact .none
  | some v => exact .some (.inl rfl)

/-- The reader is known by the options that a value says and by what it is refused for. -/
theorem ofJson_eq_iff {v : Json} (hv : v.WellFormed) :
    (∀ o, ofJson v = .ok o ↔ v.SaysOptions o) ∧
      ∀ e, ofJson v = .error e ↔ v.RefusedAsOptions e :=
  eq_iff_of_exhaustive (fun _ ↦ ofJson_of_saysOptions hv) (fun _ ↦ ofJson_of_refusedAsOptions)
    (saysOptions_or_refusedAsOptions v)

/-- Values that say the same are read as the same options. -/
theorem ofJson_eq_ok_iff_of_saysSame {v w : Json} (hv : v.WellFormed) (hw : w.WellFormed)
    (hsame : v.SaysSame w) {o : CollectOptions} : ofJson v = .ok o ↔ ofJson w = .ok o := by
  rw [(ofJson_eq_iff hv).1, (ofJson_eq_iff hw).1]
  exact ⟨fun h ↦ h.of_saysSame hsame, fun h ↦ h.of_saysSame hsame.symm⟩

/-- **Options are read exactly from their language.**  A value without a repeated name is read
exactly if it is an object of settings or a list of at most two of them, each by a value that names
one of its choices, and what is read is every choice that is given and the default for any other.
Neither the order of the members nor the way in which they and the choices are written makes a
difference to that.  Every other value is refused for the first of its settings with which something
is wrong, or else for its length, or for being neither an object nor a list. -/
theorem ofJson_exact {v : Json} (hv : v.WellFormed) :
    (∀ o, ofJson v = .ok o ↔ v.SaysOptions o) ∧
    (∀ e, ofJson v = .error e ↔ v.RefusedAsOptions e) ∧
    (∀ w, w.WellFormed → v.SaysSame w → ∀ o, ofJson v = .ok o ↔ ofJson w = .ok o) ∧
    (∀ members members', v = .object members → members.Perm members' →
      ∀ o, ofJson v = .ok o ↔ ofJson (.object members') = .ok o) := by
  refine ⟨(ofJson_eq_iff hv).1, (ofJson_eq_iff hv).2,
    fun w hw hsame o ↦ ofJson_eq_ok_iff_of_saysSame hv hw hsame, ?_⟩
  rintro members members' rfl hperm o
  exact ofJson_eq_ok_iff_of_saysSame hv (hv.of_perm hperm)
    (saysSame_of_perm hv.nodup_settings hperm)

/-- Both settings in an object, the second one first. -/
def swappedSettings : Json :=
  .object [("inline_fragments", .object [("expand", .null)]), ("key", .string "response_key")]

/-- The same two in a list, each choice written in the other way. -/
def listedSettings : Json := .list [.object [("response_key", .null)], .string "expand"]

/-- An object and a list that say the same are read as the same options. -/
theorem ofJson_exact_listed :
    swappedSettings.WellFormed ∧ listedSettings.WellFormed ∧
      swappedSettings.SaysSame listedSettings ∧
      ofJson swappedSettings = .ok .response ∧ ofJson listedSettings = .ok .response := by
  have hmember (name : String) : (Json.object [(name, .null)]).WellFormed :=
    .object (by simp) (by simpa using .scalar rfl)
  have hswapped : swappedSettings.WellFormed := by
    refine .object (by decide) (List.forall_mem_cons.2 ⟨hmember _, ?_⟩)
    simpa using .scalar rfl
  have hlisted : listedSettings.WellFormed := by
    refine .list (List.forall_mem_cons.2 ⟨hmember _, ?_⟩)
    simpa using .scalar rfl
  have hsame : swappedSettings.SaysSame listedSettings := by
    refine ⟨.inl rfl, .inr ⟨_, rfl, by decide⟩, fun name ↦ ?_⟩
    by_cases hname : name ∈ settingNames
    · rcases mem_settingNames_iff.1 hname with rfl | rfl
      · exact .some (.inr ⟨"response_key", .plain _, .member _⟩)
      · exact .some (.inr ⟨"expand", .member _, .plain _⟩)
    · rw [mem_settingNames_iff, not_or] at hname
      rw [valueOf?_eq_none_iff.2 (by simp [swappedSettings, Json.settings, hname]),
        valueOf?_eq_none_iff.2 (by simp [listedSettings, Json.settings, settingNames, hname])]
      exact .none
  have hread : ofJson swappedSettings = .ok .response := rfl
  exact ⟨hswapped, hlisted, hsame, hread,
    ((ofJson_exact hswapped).2.2.1 _ hlisted hsame _).1 hread⟩

/-- A name that is none comes before a value that is no choice, as it stands before it. -/
example : ofJson (.object [("depth", .string "3"), ("key", .string "alias")])
    = .error (.unknownMember "depth") := by
  rfl

end RequestedFields

import TradingDesk.Exchange.Client
import TradingDesk.Proofs.Settings
import TradingDesk.Proofs.Settings.Layers
import TradingDesk.Proofs.Text.Number
import Mathlib.Tactic
/-!
# Credentials from the environment

A variable that names a part of the credentials is read as any other variable is. What comes out,
and what requests are signed with, is its text in the usual form of the flag or the number that it
reads as; a passphrase such as `0123456` loses its zero. The text is kept exactly if it is of no
flag or number, or has that form; a text with a slash, or with any other character that those are
not written with, is kept.
-/

namespace TradingDesk.Settings

/-! ### Texts of variables -/

def IsFlag (s : String) : Prop := Text.lower s = "true" ∨ Text.lower s = "false"

instance (s : String) : Decidable (IsFlag s) :=
  inferInstanceAs (Decidable (Text.lower s = "true" ∨ Text.lower s = "false"))

/-- A text as it comes back from the flag or the number that it reads as. -/
def usualForm (s : String) : String :=
  if IsFlag s then Text.lower s
  else match Text.integer? s with
    | some n => toString n
    | none => match Text.float? s with
      | some x => Shortest.floatText x
      | none => s

/-- A text that is of no flag or number, or else is written as those are. -/
structure IsUsual (s : String) : Prop where
  flag : IsFlag s → Text.lower s = s
  integer : ¬ IsFlag s → ∀ n, Text.integer? s = some n → toString n = s
  float : ¬ IsFlag s → Text.integer? s = none → ∀ x, Text.float? s = some x →
    Shortest.floatText x = s

section

variable {s : String}

theorem usualForm_of_flag (hflag : IsFlag s) : usualForm s = Text.lower s := if_pos hflag

theorem usualForm_of_integer (hflag : ¬ IsFlag s) {n : Int} (hn : Text.integer? s = some n) :
    usualForm s = toString n := by
  rw [usualForm, if_neg hflag, hn]

theorem usualForm_of_float (hflag : ¬ IsFlag s) (hinteger : Text.integer? s = none) {x : Float}
    (hx : Text.float? s = some x) : usualForm s = Shortest.floatText x := by
  rw [usualForm, if_neg hflag, hinteger, hx]

theorem usualForm_eq_self_iff : usualForm s = s ↔ IsUsual s := by
  constructor
  · intro h
    exact ⟨fun hflag => (usualForm_of_flag hflag).symm.trans h,
      fun hflag _ hn => (usualForm_of_integer hflag hn).symm.trans h,
      fun hflag hinteger _ hx => (usualForm_of_float hflag hinteger hx).symm.trans h⟩
  · intro h
    unfold usualForm
    split
    · next hflag => exact h.flag hflag
    · next hflag =>
      split
      · next n hn => exact h.integer hflag n hn
      · next hinteger =>
        split
        · next x hx => exact h.float hflag hinteger x hx
        · rfl

/-- A text such as `org/7` is usual, whatever stands around the slash. -/
theorem isUsual_of_foreign {c : Char} (hforeign : Text.IsForeign c) (hc : c ∈ s.toList) :
    IsUsual s where
  flag := by
    rintro (htrue | hfalse)
    · exact absurd htrue (hforeign.lower_ne hc (by decide))
    · exact absurd hfalse (hforeign.lower_ne hc (by decide))
  integer _ n hn := by
    rw [hforeign.integer? hc] at hn
    cases hn
  float _ _ x hx := by
    rw [hforeign.float? hc] at hx
    cases hx

end

/-- The value of a variable that is no list: a single value, which reads as the usual form of its
text. -/
theorem variableValue_cases {key : String} (hkey : key ≠ listedKey) (s : String) :
    (variableValue key s).Covers ∧ Source.isNull (variableValue key s) = false ∧
      (variableValue key s).text? = some (usualForm s) := by
  unfold variableValue usualForm IsFlag
  by_cases htrue : Text.lower s = "true"
  · simp [htrue, Value.Covers, Value.overlay, Source.isNull, Value.text?]
  · by_cases hfalse : Text.lower s = "false"
    · simp [hfalse, Value.Covers, Value.overlay, Source.isNull, Value.text?]
    · simp only [htrue, hfalse, if_false, or_self, if_neg hkey]
      cases Text.integer? s with
      | some n => exact ⟨fun _ => rfl, rfl, rfl⟩
      | none =>
          cases Text.float? s with
          | some x => exact ⟨fun _ => rfl, rfl, rfl⟩
          | none => exact ⟨fun _ => rfl, rfl, rfl⟩

/-! ### Parts of the credentials -/

inductive Part where
  | key
  | secret
  | passphrase
deriving DecidableEq, Repr

namespace Part

def name : Part → String
  | key => "api_key"
  | secret => "api_secret"
  | passphrase => "api_passphrase"

def path (p : Part) : List String := ["exchange", p.name]

/-- The key that variables of this part stand for. -/
def settingKey (p : Part) : String := "exchange." ++ p.name

def of (e : Exchange) : Part → Option String
  | key => e.apiKey
  | secret => e.apiSecret
  | passphrase => e.apiPassphrase

theorem ofKey_settingKey (p : Part) : Path.ofKey p.settingKey = p.path.map .key := by
  cases p <;> decide +kernel

theorem settingKey_ne_listedKey (p : Part) : p.settingKey ≠ listedKey := by
  cases p <;> decide

theorem lower_path (p : Part) : p.path.map Text.lower = p.path := by
  cases p <;> decide +kernel

end Part

/-! ### Reading them -/

theorem lookup_of_slots {names : List String} {v w : Value} {s : Slots Value} {name : String}
    (hs : Slots.of? names v = some s) (hname : name ∈ names)
    (hw : v.entries.lookup name = some w) : s.given.lookup name = some w := by
  cases v with
  | table es =>
      simp only [Slots.of?, Source.list?, Source.members?, Option.bind_eq_bind,
        Option.bind_some] at hs
      split at hs
      · cases hs
        rw [KeyMap.lookup_filter_key (names.contains ·) (by simpa using hname)]
        exact hw
      · cases hs
  | _ => cases hw

theorem exchange_of_read {v w : Value} {c : Settings} (hread : read? v = some c)
    (hw : v.entries.lookup "exchange" = some w) : Exchange.read? w = some c.exchange := by
  simp only [read?, Option.bind_eq_bind, Option.bind_eq_some_iff, Option.pure_def,
    Option.some.injEq] at hread
  obtain ⟨s, hs, e, he, -, -, -, -, -, -, -, -, -, -, -, -, -, -, -, -, rfl⟩ := hread
  rwa [Slots.withDefault, lookup_of_slots hs (by simp) hw] at he

theorem text_of_optional {s : Slots Value} {name : String} {w : Value} {o : Option String}
    (hread : s.optional name Source.text? = some o) (hw : s.given.lookup name = some w)
    (hnull : Source.isNull w = false) : o = w.text? := by
  rw [Slots.optional, Slots.withDefault, hw] at hread
  simp only [Source.nullable?, hnull, Bool.false_eq_true, if_false, Option.map_eq_some_iff] at hread
  obtain ⟨text, htext, rfl⟩ := hread
  exact htext.symm

theorem Part.of_read {v w : Value} {e : Exchange} (p : Part) (hread : Exchange.read? v = some e)
    (hw : v.entries.lookup p.name = some w) (hnull : Source.isNull w = false) :
    p.of e = w.text? := by
  simp only [Exchange.read?, Option.bind_eq_bind, Option.bind_eq_some_iff, Option.pure_def,
    Option.some.injEq] at hread
  obtain ⟨s, hs, key, hkey, secret, hsecret, passphrase, hpassphrase, -, -, -, -, rfl⟩ := hread
  have hgiven := lookup_of_slots hs (by cases p <;> simp [name]) hw
  cases p with
  | key => exact text_of_optional hkey hgiven hnull
  | secret => exact text_of_optional hsecret hgiven hnull
  | passphrase => exact text_of_optional hpassphrase hgiven hnull

theorem Part.of_at {v w : Value} {c : Settings} (p : Part) (hread : read? v = some c)
    (hw : v.at? p.path = some w) (hnull : Source.isNull w = false) :
    p.of c.exchange = w.text? := by
  have hnames := p.lower_path
  simp only [path, List.map_cons, List.map_nil, List.cons.injEq, and_true] at hnames
  simp only [path, Value.at?, hnames.1, hnames.2, Option.bind_eq_some_iff,
    Option.some.injEq] at hw
  obtain ⟨exchange, hexchange, part, hpart, rfl⟩ := hw
  exact p.of_read (exchange_of_read hread hexchange) hpart hnull

/-! ### Signing with them -/

/-- The credentials are given in full if each of their parts is. -/
theorem Exchange.credentials?_eq_some_iff {e : Exchange} {k : Credentials} :
    e.credentials? = some k ↔
      e.apiKey = some k.key ∧ e.apiSecret = some k.secret ∧
        e.apiPassphrase = some k.passphrase := by
  obtain ⟨key, secret, passphrase⟩ := k
  simp only [credentials?, Option.bind_eq_bind, Option.bind_eq_some_iff, Option.pure_def,
    Option.some.injEq, Credentials.mk.injEq]
  constructor
  · rintro ⟨_, hkey, _, hsecret, _, hpassphrase, rfl, rfl, rfl⟩
    exact ⟨hkey, hsecret, hpassphrase⟩
  · rintro ⟨hkey, hsecret, hpassphrase⟩
    exact ⟨key, hkey, secret, hsecret, passphrase, hpassphrase, rfl, rfl, rfl⟩

/-- A request for a path shows a text as a part of the credentials: as a header, or by its
signature. -/
def Part.Shows (s : String) (method : Http.Method) (path body : String) (now : Instant)
    (request : Http.Request) : Part → Prop
  | key => request.headers.lookup "CB-ACCESS-KEY" = some s
  | secret => ∃ signature, Exchange.sign s now.seconds method.name path body = .ok signature ∧
      request.headers.lookup "CB-ACCESS-SIGN" = some signature
  | passphrase => request.headers.lookup "CB-ACCESS-PASSPHRASE" = some s

section

variable {url path body s : String} {e : Exchange} {k : Credentials} {method : Http.Method}
variable {now : Instant} {request : Http.Request}

/-- A signed request shows all parts of the credentials. -/
theorem shows_of_signed {client : Exchange.Client} (hk : client.credentials = some k)
    (hsigned : client.signed method path body now = .ok request) :
    Part.key.Shows k.key method path body now request ∧
      Part.secret.Shows k.secret method path body now request ∧
      Part.passphrase.Shows k.passphrase method path body now request := by
  unfold Exchange.Client.signed at hsigned
  rw [hk] at hsigned
  simp only [bind, Except.bind] at hsigned
  split at hsigned
  · cases hsigned
  · next signature hsignature =>
    obtain rfl := Except.ok.inj hsigned
    simp only [Part.Shows, Http.Request.withHeader, Http.Request.withJson]
    refine ⟨?_, ⟨signature, hsignature, ?_⟩, ?_⟩ <;> split <;> rfl

theorem Part.shows_of_given (p : Part) (hs : p.of e = some s)
    (hsigned : (Exchange.Client.of url e.credentials?).signed method path body now =
      .ok request) : p.Shows s method path body now request := by
  cases hk : e.credentials? with
  | none =>
      rw [hk] at hsigned
      cases hsigned
  | some k =>
      obtain ⟨hkey, hsecret, hpassphrase⟩ := Exchange.credentials?_eq_some_iff.mp hk
      obtain ⟨hshowsKey, hshowsSecret, hshowsPassphrase⟩ := shows_of_signed hk hsigned
      cases p with
      | key => exact Option.some.inj (hs.symm.trans hkey) ▸ hshowsKey
      | secret => exact Option.some.inj (hs.symm.trans hsecret) ▸ hshowsSecret
      | passphrase => exact Option.some.inj (hs.symm.trans hpassphrase) ▸ hshowsPassphrase

end

/-- A part of the credentials, as the last variable that tells of it gives it. -/
theorem credential_of_variable {file : Option String} {before after : List (String × String)}
    {name s : String} {c : Settings} (p : Part) (hname : variableKey? name = some p.settingKey)
    (hafter : Untouched p.path after)
    (hload : load file (before ++ (name, s) :: after) = .ok c) :
    p.of c.exchange = some (usualForm s) ∧
      (p.of c.exchange = some s ↔ IsUsual s) ∧
      (∀ ch ∈ s.toList, Text.IsForeign ch → p.of c.exchange = some s) ∧
      ∀ url method path body now request,
        (Exchange.Client.of url c.exchange.credentials?).signed method path body now =
          .ok request → p.Shows (usualForm s) method path body now request := by
  obtain ⟨hcovers, hnull, htext⟩ := variableValue_cases p.settingKey_ne_listedKey s
  obtain ⟨entries, hread⟩ := read_of_load hload
  have hentries : variableEntries (before ++ (name, s) :: after) =
      variableEntries before ++ (p.settingKey, variableValue p.settingKey s) ::
        variableEntries after := by
    simp [variableEntries, hname]
  rw [hentries, ← List.append_assoc] at hread
  have hat := at?_of_last p.ofKey_settingKey hcovers (apart_of_untouched hafter)
    (entries ++ variableEntries before) (.table [])
  have hpart := p.of_at hread hat hnull
  rw [htext] at hpart
  have hkept : p.of c.exchange = some s ↔ IsUsual s := by
    rw [hpart, Option.some.injEq]
    exact usualForm_eq_self_iff
  exact ⟨hpart, hkept, fun _ hch hforeign => hkept.mpr (isUsual_of_foreign hforeign hch),
    fun _ _ _ _ _ _ => p.shows_of_given hpart⟩

/-- One portfolio that is not live, and credentials of which the passphrase is all digits. -/
def digitalPassphrase : List (String × String) :=
  [("ALPHA__STREAM__ASSETS[0]", "BTC-USD"), ("ALPHA__PORTFOLIOS[0]__ID", "main"),
    ("ALPHA__PORTFOLIOS[0]__ASSET", "BTC-USD"), ("ALPHA__PORTFOLIOS[0]__STRATEGY__SIZE", "1"),
    ("ALPHA__EXCHANGE__API_PASSPHRASE", "0123456"), ("ALPHA__EXCHANGE__API_KEY", "key"),
    ("ALPHA__EXCHANGE__API_SECRET", "c2VjcmV0")]

theorem entries_digitalPassphrase : variableEntries digitalPassphrase =
    [("stream.assets[0]", .text "BTC-USD"), ("portfolios[0].id", .text "main"),
      ("portfolios[0].asset", .text "BTC-USD"), ("portfolios[0].strategy.size", .int 1),
      ("exchange.api_passphrase", .int 123456), ("exchange.api_key", .text "key"),
      ("exchange.api_secret", .text "c2VjcmV0")] := by
  rfl

theorem load_digitalPassphrase : ∃ c, load none digitalPassphrase = .ok c ∧ c.exchange =
    { apiKey := "key", apiSecret := "c2VjcmV0", apiPassphrase := "123456" } := by
  have hchecked : ((read? ((variableEntries digitalPassphrase).foldl layer (.table []))).map
      fun c => (c.flaw?, c.exchange)) = some (none,
        { apiKey := "key", apiSecret := "c2VjcmV0", apiPassphrase := "123456" }) := by
    rw [entries_digitalPassphrase]
    decide +kernel
  obtain ⟨c, hread, hc⟩ := Option.map_eq_some_iff.mp hchecked
  obtain ⟨hflaw, hexchange⟩ := Prod.mk.inj hc
  exact ⟨c, load_of_read hread (validate_eq_ok_iff.mpr hflaw), hexchange⟩

/-- The zero before a passphrase of digits is lost. -/
theorem passphrase_loses_zero : ∃ c, load none digitalPassphrase = .ok c ∧
    c.exchange.apiPassphrase ≠ some "0123456" := by
  obtain ⟨c, hload, hexchange⟩ := load_digitalPassphrase
  refine ⟨c, hload, ?_⟩
  rw [hexchange]
  decide

theorem trimmed_passphrase_shown : ∃ c request,
    load none digitalPassphrase = .ok c ∧
    (Exchange.Client.of c.exchange.restUrl c.exchange.credentials?).signed .get "/orders" ""
      ⟨1700000000, 0⟩ = .ok request ∧
    request.headers.lookup "CB-ACCESS-PASSPHRASE" = some "123456" := by
  obtain ⟨c, hload, hexchange⟩ := load_digitalPassphrase
  have hform : usualForm "0123456" = "123456" := by decide +kernel
  have hname : variableKey? "ALPHA__EXCHANGE__API_PASSPHRASE" =
      some Part.passphrase.settingKey := by decide +kernel
  have hafter : Untouched Part.passphrase.path
      [("ALPHA__EXCHANGE__API_KEY", "key"), ("ALPHA__EXCHANGE__API_SECRET", "c2VjcmV0")] := by
    decide +kernel
  have hlast : digitalPassphrase = digitalPassphrase.take 4 ++
      ("ALPHA__EXCHANGE__API_PASSPHRASE", "0123456") ::
        [("ALPHA__EXCHANGE__API_KEY", "key"), ("ALPHA__EXCHANGE__API_SECRET", "c2VjcmV0")] := rfl
  obtain ⟨-, -, -, hshown⟩ := credential_of_variable .passphrase hname hafter (hlast ▸ hload)
  rw [hform] at hshown
  obtain ⟨request, hrequest⟩ : ∃ request,
      (Exchange.Client.of c.exchange.restUrl c.exchange.credentials?).signed .get "/orders" ""
        ⟨1700000000, 0⟩ = .ok request := by
    unfold Exchange.Client.signed Exchange.sign
    have hkey : Base64.decode? "c2VjcmV0" = some "secret".toUTF8.toList := by decide +kernel
    rw [hexchange]
    simp only [Exchange.Client.of, Exchange.credentials?, Option.bind_eq_bind, Option.bind_some,
      Option.pure_def, hkey]
    exact ⟨_, rfl⟩
  exact ⟨c, request, hload, hrequest, hshown _ _ _ _ _ _ hrequest⟩

end TradingDesk.Settings

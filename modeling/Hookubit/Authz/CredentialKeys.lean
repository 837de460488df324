/- sources: authz/audit.service.ts (keyWords, isCredentialKey)
   digest: Which metadata keys name a credential, and how far that depends on their spelling. -/

import Mathlib.Data.List.Induction

set_option autoImplicit false
set_option relaxedAutoImplicit false

namespace Hookubit.Authz.CredentialKeys

abbrev Text := List Char

def CREDENTIAL_WORDS : List Text :=
  ["secret", "secrets", "password", "passwords", "passwd", "passphrase", "pwd", "token", "tokens",
    "credential", "credentials", "authorization", "authorisation", "signature", "signatures",
    "apikey", "apikeys", "bearer", "otp"].map String.toList

def NON_SECRET_TERMINAL : List Text :=
  ["at", "id", "ids", "count", "version", "prefix"].map String.toList

def TRANSPARENT_SUFFIX : List Text :=
  ["hash", "hashes", "digest", "value", "values", "plaintext", "raw"].map String.toList

def KEY_QUALIFIERS : List Text :=
  ["api", "private", "public", "secret", "signing", "access", "encryption", "session", "client",
    "master", "shared", "webhook"].map String.toList

def small (c : Char) : Bool := c.isLower || c.isDigit

/-- The replacement of `([a-z0-9])([A-Z])`. Matches do not overlap: one ends in a capital. -/
def spaceCapitals : Text → Text
  | a :: b :: rest =>
    if small a && b.isUpper then a :: ' ' :: spaceCapitals (b :: rest)
    else a :: spaceCapitals (b :: rest)
  | text => text

/-- The replacement of `([A-Z]+)([A-Z][a-z])`: in a run of capitals the last one goes with the
small letter behind it. -/
def spaceAcronyms : Text → Text
  | a :: b :: rest =>
    if a.isUpper && b.isUpper && rest.head?.any Char.isLower then
      a :: ' ' :: spaceAcronyms (b :: rest)
    else a :: spaceAcronyms (b :: rest)
  | text => text

def keyWords (key : Text) : List Text :=
  (((spaceAcronyms (spaceCapitals key)).splitOnP fun c => !c.isAlphanum).filter (· ≠ [])).map
    (List.map Char.toLower)

def isKeyWord (word : Text) : Bool := word = "key".toList || word = "keys".toList

/-- The words without transparent suffixes, last word first; one word is always left. -/
def stripSuffixes : List Text → List Text
  | last :: before :: rest =>
    if last ∈ TRANSPARENT_SUFFIX then stripSuffixes (before :: rest) else last :: before :: rest
  | words => words

def hasQualifiedKey : List Text → Bool
  | word :: following :: rest =>
    (word ∈ KEY_QUALIFIERS && isKeyWord following) || hasQualifiedKey (following :: rest)
  | _ => false

def areCredentialWords (all : List Text) : Bool :=
  match stripSuffixes all.reverse with
  | [] => false
  | last :: before =>
    if last ∈ NON_SECRET_TERMINAL then false
    else
      (last :: before).any (· ∈ CREDENTIAL_WORDS) || isKeyWord last ||
        hasQualifiedKey (last :: before).reverse

def isCredentialKey (key : Text) : Bool := areCredentialWords (keyWords key)

/-- A non-empty word of small letters and digits. -/
def IsWord (word : Text) : Prop := word ≠ [] ∧ ∀ c ∈ word, small c = true

def capitalize : Text → Text
  | [] => []
  | c :: rest => c.toUpper :: rest

def camelCase : List Text → Text
  | [] => []
  | word :: words => word ++ words.flatMap capitalize

/-- A word that camel case makes a single capital. -/
def isLoneCapital (leading : Bool) (word : Text) : Bool :=
  !leading && word.length == 1 && word.any Char.isLower

/-- Camel case shows no boundary between two words: the second begins with a digit, or the first
is a single capital and the second's own capital has no small letter behind it. -/
def joins (leading : Bool) (word following : Text) : Bool :=
  following.head?.any Char.isDigit ||
    (isLoneCapital leading word && !(following.tail.head?.any Char.isLower))

def attach (leading : Bool) (word : Text) : List Text → List Text → List Text
  | following :: _, group :: groups =>
    if joins leading word following then (word ++ group) :: groups else word :: group :: groups
  | _, _ => [word]

/-- The words as camel case shows them. -/
def regroup : Bool → List Text → List Text
  | _, [] => []
  | leading, word :: others => attach leading word others (regroup false others)

def Apart : Bool → List Text → Prop
  | leading, word :: following :: rest =>
    joins leading word following = false ∧ Apart false (following :: rest)
  | _, _ => True

@[elab_as_elim]
theorem small_induction {P : Char → Prop} (c : Char) (hc : small c = true)
    (h : ∀ n : Fin 128, small (Char.ofNat n) = true → P (Char.ofNat n)) : P c := by
  have ascii : c.toNat < 128 := by
    rcases Bool.or_eq_true_iff.mp hc with letter | numeral
    · have le : c.val ≤ 'z'.val := of_decide_eq_true (Bool.and_eq_true_iff.mp letter).2
      exact Nat.lt_of_le_of_lt (UInt32.le_iff_toNat_le.mp le) (by decide)
    · have le : c.val ≤ '9'.val := of_decide_eq_true (Bool.and_eq_true_iff.mp numeral).2
      exact Nat.lt_of_le_of_lt (UInt32.le_iff_toNat_le.mp le) (by decide)
  have same := h ⟨c.toNat, ascii⟩
  simp only [Char.ofNat_toNat] at same
  exact same hc

variable {c : Char} {x word : Text} {all : List Text} {leading : Bool}

theorem toUpper_small (hc : small c = true) :
    c.toUpper.isUpper = c.isLower ∧ small c.toUpper = c.isDigit ∧ c.toUpper.isLower = false ∧
      c.toUpper.isAlphanum = true ∧ c.toUpper.toLower = c ∧ c.isDigit = !c.isLower := by
  refine small_induction c hc ?_
  decide

theorem of_small (hc : small c = true) :
    c.isUpper = false ∧ c.isAlphanum = true ∧ c.toLower = c := by
  refine small_induction c hc ?_
  decide

theorem not_small_of_isUpper (upper : c.isUpper = true) : small c = false := by
  by_contra hc
  rw [Bool.not_eq_false] at hc
  rw [(of_small hc).1] at upper
  cases upper

def spaced (text : Text) : Text := spaceAcronyms (spaceCapitals text)

/-- Where the two replacements together put a space. -/
def cuts (a b : Char) (rest : Text) : Bool :=
  b.isUpper && (small a || a.isUpper && rest.head?.any Char.isLower)

theorem spaceCapitals_cons (b : Char) (rest : Text) :
    ∃ tail, spaceCapitals (b :: rest) = b :: tail ∧
      (b.isUpper = true → tail.head? = rest.head?) := by
  cases rest with
  | nil => exact ⟨[], rfl, fun _ => rfl⟩
  | cons c rest =>
    unfold spaceCapitals
    split
    · rename_i matched
      refine ⟨_, rfl, fun upper => ?_⟩
      rw [not_small_of_isUpper upper] at matched
      cases matched
    · obtain ⟨tail, same, -⟩ := spaceCapitals_cons c rest
      exact ⟨_, rfl, fun _ => by rw [same]; rfl⟩

theorem spaced_cons_cons (a b : Char) (rest : Text) :
    spaced (a :: b :: rest) =
      if cuts a b rest then a :: ' ' :: spaced (b :: rest) else a :: spaced (b :: rest) := by
  obtain ⟨tail, same, follows⟩ := spaceCapitals_cons b rest
  by_cases matched : (small a && b.isUpper) = true
  · have cut : cuts a b rest = true := by simp_all [cuts]
    have blank : ∀ c text, spaceAcronyms (c :: ' ' :: text) = c :: ' ' :: spaceAcronyms text := by
      intro c text
      cases text <;> simp [spaceAcronyms]
    simp only [spaced, spaceCapitals, matched, cut, if_true, blank]
  · have cut : (a.isUpper && b.isUpper && tail.head?.any Char.isLower) = cuts a b rest := by
      cases upper : b.isUpper with
      | false => simp [cuts, upper]
      | true => simp_all [cuts]
    simp only [spaced, spaceCapitals, matched, same, spaceAcronyms, cut, Bool.false_eq_true,
      if_false]

theorem spaced_cons (b : Char) (rest : Text) : ∃ tail, spaced (b :: rest) = b :: tail := by
  cases rest with
  | nil => exact ⟨[], rfl⟩
  | cons c rest =>
    rw [spaced_cons_cons]
    split
    · exact ⟨_, rfl⟩
    · exact ⟨_, rfl⟩

theorem cuts_of_not_isUpper {a b : Char} (rest : Text) (h : b.isUpper = false) :
    cuts a b rest = false := by
  simp [cuts, h]

theorem spaced_self (a : Char) (text : Text) (h : ∀ c ∈ text, c.isUpper = false) :
    spaced (a :: text) = a :: text := by
  induction text generalizing a with
  | nil => rfl
  | cons b text ih =>
    have stay := cuts_of_not_isUpper (a := a) text (h b List.mem_cons_self)
    rw [spaced_cons_cons, stay, ih b fun c hc => h c (List.mem_cons_of_mem b hc)]
    rfl

theorem spaced_append (a : Char) (text : Text) (h : ∀ c ∈ text, c.isUpper = false) (b : Char)
    (rest : Text) :
    spaced (a :: text ++ b :: rest) =
      a :: text ++ if cuts (text.getLastD a) b rest then ' ' :: spaced (b :: rest)
        else spaced (b :: rest) := by
  induction text generalizing a with
  | nil =>
    rw [List.singleton_append, spaced_cons_cons, List.getLastD_nil, List.singleton_append]
    split <;> rfl
  | cons c text ih =>
    have stay := cuts_of_not_isUpper (a := a) (text ++ b :: rest) (h c List.mem_cons_self)
    have behind := ih c fun d hd => h d (List.mem_cons_of_mem c hd)
    rw [List.cons_append] at behind
    rw [List.cons_append, List.cons_append, spaced_cons_cons, stay, behind, List.getLastD_cons]
    rfl

def words (text : Text) : List Text :=
  ((text.splitOnP fun c => !c.isAlphanum).filter (· ≠ [])).map (List.map Char.toLower)

theorem keyWords_eq (key : Text) : keyWords key = words (spaced key) := rfl

theorem words_append_break (hc : c.isAlphanum = false) (x y : Text) :
    words (x ++ c :: y) = words x ++ words y := by
  rw [words, List.splitOnP_append_cons x y (by simp [hc]), List.filter_append, List.map_append,
    words, words]

theorem splitOnP_front (plain : ∀ c ∈ x, c.isAlphanum = true) (rest : Text) :
    ∃ r rs, rest.splitOnP (fun c => !c.isAlphanum) = r :: rs ∧
      (x ++ rest).splitOnP (fun c => !c.isAlphanum) = (x ++ r) :: rs := by
  obtain ⟨r, rs, pieces⟩ :=
    List.exists_cons_of_ne_nil (List.splitOnP_ne_nil (fun c => !c.isAlphanum) rest)
  refine ⟨r, rs, pieces, ?_⟩
  induction x with
  | nil => exact pieces
  | cons c x ih =>
    have here := plain c List.mem_cons_self
    rw [List.cons_append, List.splitOnP_cons_eq_if_modifyHead, here,
      ih fun d hd => plain d (List.mem_cons_of_mem c hd)]
    rfl

theorem words_self (nonempty : x ≠ []) (plain : ∀ c ∈ x, c.isAlphanum = true) :
    words x = [x.map Char.toLower] := by
  obtain ⟨r, rs, pieces, whole⟩ := splitOnP_front plain []
  obtain ⟨rfl, rfl⟩ : [] = r ∧ [] = rs := by simpa using pieces
  rw [List.append_nil] at whole
  simp [words, whole, nonempty]

theorem words_append_join (plain : ∀ c ∈ x, c.isAlphanum = true) {b : Char}
    (hb : b.isAlphanum = true) (rest : Text) : ∃ group groups, words (b :: rest) = group :: groups ∧
      words (x ++ b :: rest) = (x.map Char.toLower ++ group) :: groups := by
  obtain ⟨r, rs, -, behind⟩ := splitOnP_front (x := [b]) (by simpa using hb) rest
  obtain ⟨r', rs', pieces, whole⟩ := splitOnP_front plain (b :: rest)
  rw [List.singleton_append, List.singleton_append] at behind
  obtain ⟨rfl, rfl⟩ : b :: r = r' ∧ rs = rs' := by simpa [behind] using pieces
  refine ⟨(b :: r).map Char.toLower, (rs.filter (· ≠ [])).map (List.map Char.toLower), ?_, ?_⟩
  · simp [words, behind]
  · simp [words, whole]

theorem map_toLower_self (h : ∀ c ∈ word, small c = true) : word.map Char.toLower = word := by
  rw [List.map_congr_left fun c hc => (of_small (h c hc)).2.2, List.map_id']

theorem words_word (h : IsWord word) : words word = [word] := by
  rw [words_self h.1 fun c hc => (of_small (h.2 c hc)).2.1, map_toLower_self h.2]

theorem spaced_of_no_capital {text : Text} (h : ∀ c ∈ text, c.isUpper = false) :
    spaced text = text := by
  cases text with
  | nil => rfl
  | cons a text => exact spaced_self a text fun c hc => h c (List.mem_cons_of_mem a hc)

theorem keyWords_intercalate {sep : Char} (hs : sep.isAlphanum = false)
    (valid : ∀ word ∈ all, IsWord word) : keyWords ([sep].intercalate all) = all := by
  have plain : ∀ c ∈ [sep].intercalate all, c.isUpper = false := by
    have letterless : sep.isAlpha = false := (Bool.or_eq_false_iff.mp hs).1
    have bare : sep.isUpper = false := (Bool.or_eq_false_iff.mp letterless).1
    intro c hc
    induction all with
    | nil => cases hc
    | cons word all ih =>
      have here := fun h => (of_small ((valid word List.mem_cons_self).2 c h)).1
      cases all with
      | nil => exact here (by simpa [List.intercalate] using hc)
      | cons next all =>
        rw [List.intercalate_cons_cons, List.append_assoc, List.mem_append, List.mem_append,
          List.mem_singleton] at hc
        obtain inside | rfl | later := hc
        · exact here inside
        · exact bare
        · exact ih (fun w hw => valid w (List.mem_cons_of_mem word hw)) later
  rw [keyWords_eq, spaced_of_no_capital plain]
  clear plain
  induction all with
  | nil => rfl
  | cons word all ih =>
    have here := words_word (valid word List.mem_cons_self)
    have behind := ih fun w hw => valid w (List.mem_cons_of_mem word hw)
    cases all with
    | nil => simpa [List.intercalate] using here
    | cons next all =>
      rw [List.intercalate_cons_cons, List.append_assoc, List.singleton_append,
        words_append_break hs, here, behind]
      rfl

/-- A word as camel case spells it. -/
def piece (leading : Bool) (word : Text) : Text := if leading then word else capitalize word

theorem piece_spec (leading : Bool) (h : IsWord word) :
    ∃ a t, piece leading word = a :: t ∧ (∀ c ∈ t, small c = true) ∧
      (∀ c ∈ a :: t, c.isAlphanum = true) ∧
      (a :: t).map Char.toLower = word ∧
      small (t.getLastD a) = !isLoneCapital leading word ∧
      (isLoneCapital leading word = true → (t.getLastD a).isUpper = true) := by
  obtain ⟨c, r, rfl⟩ := List.exists_cons_of_ne_nil h.1
  have hc := h.2 c List.mem_cons_self
  have hr : ∀ d ∈ r, small d = true := fun d hd => h.2 d (List.mem_cons_of_mem c hd)
  have last : ∀ d, small d = true → small (r.getLastD d) = true := by
    intro d hd
    cases r using List.reverseRecOn with
    | nil => exact hd
    | append_singleton r e => simpa using hr e (by simp)
  cases leading with
  | true =>
    refine ⟨c, r, rfl, hr, fun d hd => (of_small (h.2 d hd)).2.1, map_toLower_self h.2, last c hc,
      ?_⟩
    intro lone
    cases lone
  | false =>
    obtain ⟨upper, small_upper, -, alphanumeric, back, digit⟩ := toUpper_small hc
    refine ⟨c.toUpper, r, rfl, hr, List.forall_mem_cons.mpr ⟨alphanumeric, fun d hd =>
      (of_small (hr d hd)).2.1⟩, ?_, ?_, ?_⟩
    · rw [List.map_cons, back, map_toLower_self hr]
    · cases r using List.reverseRecOn with
      | nil => simp [isLoneCapital, small_upper, digit]
      | append_singleton r e => simpa [isLoneCapital] using hr e (by simp)
    · intro lone
      obtain ⟨rfl, lower⟩ : r = [] ∧ c.isLower = true := by
        cases r <;> simp_all [isLoneCapital]
      rw [List.getLastD_nil, upper, lower]

theorem head_camel {r : Text} {others : List Text} (valid : ∀ w ∈ others, IsWord w) :
    (r ++ others.flatMap capitalize).head?.any Char.isLower = r.head?.any Char.isLower := by
  cases r with
  | cons c r => rfl
  | nil =>
    cases others with
    | nil => rfl
    | cons w others =>
      obtain ⟨c, t, rfl⟩ := List.exists_cons_of_ne_nil (valid w List.mem_cons_self).1
      have hc := (valid (c :: t) List.mem_cons_self).2 c List.mem_cons_self
      simp [capitalize, (toUpper_small hc).2.2.1]

theorem cuts_camel {r : Text} {last : Char} {others : List Text} (hc : small c = true)
    (valid : ∀ w ∈ others, IsWord w) (after : small last = !isLoneCapital leading word)
    (lone : isLoneCapital leading word = true → last.isUpper = true) :
    cuts last c.toUpper (r ++ others.flatMap capitalize) = !joins leading word (c :: r) := by
  obtain ⟨upper, -, -, -, -, digit⟩ := toUpper_small hc
  simp only [cuts, joins, upper, after, head_camel valid, List.head?_cons, Option.any_some, digit,
    List.tail_cons]
  cases capital : isLoneCapital leading word with
  | false => simp
  | true => simp [lone capital]

theorem keyWords_camel (leading : Bool) (word : Text) (others : List Text)
    (valid : ∀ w ∈ word :: others, IsWord w) :
    keyWords (piece leading word ++ others.flatMap capitalize) =
      regroup leading (word :: others) := by
  induction others generalizing leading word with
  | nil =>
    obtain ⟨a, t, spelled, tail, plain, back, -, -⟩ :=
      piece_spec leading (valid word List.mem_cons_self)
    rw [List.flatMap_nil, List.append_nil, spelled, keyWords_eq,
      spaced_self a t fun c hc => (of_small (tail c hc)).1, words_self (List.cons_ne_nil a t) plain,
      back]
    rfl
  | cons following others ih =>
    have later : ∀ w ∈ following :: others, IsWord w := fun w hw =>
      valid w (List.mem_cons_of_mem word hw)
    obtain ⟨a, t, spelled, tail, plain, back, after, lone⟩ :=
      piece_spec leading (valid word List.mem_cons_self)
    obtain ⟨c, r, rfl⟩ := List.exists_cons_of_ne_nil (later following List.mem_cons_self).1
    have hc := (later (c :: r) List.mem_cons_self).2 c List.mem_cons_self
    have behind := ih false (c :: r) later
    rw [keyWords_eq] at behind
    have boundary := cuts_camel (r := r) hc (fun w hw => later w (List.mem_cons_of_mem _ hw)) after
      lone
    have whole : piece leading word ++ ((c :: r) :: others).flatMap capitalize =
        a :: t ++ c.toUpper :: (r ++ others.flatMap capitalize) := by
      rw [spelled]
      simp [capitalize]
    rw [keyWords_eq, whole, spaced_append a t fun c hc => (of_small (tail c hc)).1, boundary]
    change words (spaced (c.toUpper :: (r ++ others.flatMap capitalize))) = _ at behind
    obtain ⟨rest, spacing⟩ := spaced_cons c.toUpper (r ++ others.flatMap capitalize)
    rw [spacing] at behind ⊢
    obtain ⟨group, groups, first, joined⟩ :=
      words_append_join plain (toUpper_small hc).2.2.2.1 rest
    rw [back] at joined
    rw [regroup, ← behind, first, attach]
    cases joins leading word (c :: r) with
    | true => exact joined
    | false =>
      rw [Bool.not_false, if_pos rfl, words_append_break (by decide),
        words_self (List.cons_ne_nil a t) plain, back, first]
      rfl

theorem isWord_regroup (valid : ∀ word ∈ all, IsWord word) :
    ∀ word ∈ regroup leading all, IsWord word := by
  induction all generalizing leading with
  | nil => exact valid
  | cons word others ih =>
    have here := valid word List.mem_cons_self
    have later := @ih false fun w hw => valid w (List.mem_cons_of_mem word hw)
    rw [regroup]
    unfold attach
    split
    · rename_i group groups regrouped
      rw [regrouped] at later
      obtain ⟨first, rest⟩ := List.forall_mem_cons.mp later
      split
      · refine List.forall_mem_cons.mpr ⟨⟨by simp [here.1], fun c hc => ?_⟩, rest⟩
        exact (List.mem_append.mp hc).elim (here.2 c) (first.2 c)
      · exact List.forall_mem_cons.mpr ⟨here, later⟩
    · simpa using here

theorem regroup_of_apart (apart : Apart leading all) : regroup leading all = all := by
  induction all generalizing leading with
  | nil => rfl
  | cons word others ih =>
    cases others with
    | nil => rfl
    | cons following others =>
      rw [regroup, ih apart.2, attach, apart.1]
      rfl

/-- How far redaction depends on the spelling of a key: underscores and hyphens never matter, and
camel case is read as the same words, those joined between which it shows no boundary. -/
theorem isCredentialKey_spelling (all : List Text) (nonempty : all ≠ [])
    (valid : ∀ word ∈ all, IsWord word) :
    isCredentialKey (['_'].intercalate all) = isCredentialKey (['-'].intercalate all) ∧
      isCredentialKey (camelCase all) =
        isCredentialKey (['_'].intercalate (regroup true all)) ∧
      (Apart true all → isCredentialKey (camelCase all) =
        isCredentialKey (['_'].intercalate all)) := by
  obtain ⟨word, others, rfl⟩ := List.exists_cons_of_ne_nil nonempty
  have underscores : keyWords (['_'].intercalate (word :: others)) = word :: others :=
    keyWords_intercalate (by decide) valid
  have camel : keyWords (camelCase (word :: others)) = regroup true (word :: others) :=
    keyWords_camel true word others valid
  simp only [isCredentialKey, underscores, camel]
  refine ⟨?_, ?_, ?_⟩
  · rw [keyWords_intercalate (by decide) valid]
  · rw [keyWords_intercalate (by decide) (isWord_regroup valid)]
  · intro apart
    rw [regroup_of_apart apart]

theorem signingSecret_spelling :
    isCredentialKey "signingSecret".toList = isCredentialKey "signing_secret".toList := by
  have valid : ∀ word ∈ ["signing".toList, "secret".toList], IsWord word := by
    simp [IsWord]
    decide
  exact (isCredentialKey_spelling _ (by decide) valid).2.2 ⟨by decide, trivial⟩

/-- A digit shows no boundary in camel case, nor does a run of single capitals. -/
theorem camel_case_hides_boundaries :
    (isCredentialKey (['_'].intercalate ["secret".toList, ['2']]) = true ∧
        isCredentialKey (camelCase ["secret".toList, ['2']]) = false) ∧
      isCredentialKey (['_'].intercalate [['x'], ['o'], ['t'], ['p']]) = false ∧
        isCredentialKey (camelCase [['x'], ['o'], ['t'], ['p']]) = true := by
  decide

end Hookubit.Authz.CredentialKeys

/-
  BucketStore/Proofs/Sql/Redaction.lean
  =====================================
  **What a redacted URL hides, and what it shows.**

  Behind the scheme, the redaction replaces what stands between the first `:` and the
  last `@`.  So a text is hidden, whatever characters it has, if it stands behind a
  `:` and in front of an `@` (`redactedBody_hides`): a password in front of the host
  does, also where the password or the tail of the URL have more of either.  Any other
  text is shown as it is, unless it brings a `:` or an `@` itself (`shown_in_user`,
  `shown_in_tail`): a password among the parameters of the URL mostly is such a text.
-/
import BucketStore.Sql.Driver
import BucketStore.Sql.Server

namespace BucketStore

/-! ### Blanks at the ends -/

namespace Text

theorem containsChars_iff (part l : List Char) : containsChars part l = true ↔ part <:+: l := by
  induction l with
  | nil => simp [containsChars]
  | cons c l ih =>
    rw [containsChars, Bool.or_eq_true, ih, List.isPrefixOf_iff_prefix, List.infix_cons_iff]

theorem containsChars_of_suffix {part l l' : List Char} (hsuffix : l' <:+ l)
    (h : containsChars part l = false) : containsChars part l' = false := by
  rw [Bool.eq_false_iff, Ne, containsChars_iff] at h ⊢
  exact fun hin => h (hin.trans hsuffix.isInfix)

theorem dropWhile_append_of_not {p : Char → Bool} {c : Char} (hc : p c = false) (l rest : List Char) :
    (l ++ c :: rest).dropWhile p = l.dropWhile p ++ c :: rest := by
  induction l with
  | nil => simp [hc]
  | cons d l ih =>
    cases hd : p d with
    | false => simp [hd]
    | true => simpa [hd] using ih

/-- Trimming leaves what stands between two characters that are no blanks. -/
theorem trimChars_between {c d : Char} (hc : isBlank c = false) (hd : isBlank d = false)
    (front middle rest : List Char) :
    trimChars (front ++ c :: middle ++ d :: rest) =
      front.dropWhile isBlank ++ c :: middle ++ d :: (rest.reverse.dropWhile isBlank).reverse := by
  unfold trimChars
  rw [List.append_assoc, List.cons_append, dropWhile_append_of_not hc]
  have hreverse : (front.dropWhile isBlank ++ c :: (middle ++ d :: rest)).reverse =
      rest.reverse ++ d :: (front.dropWhile isBlank ++ c :: middle).reverse := by
    simp
  rw [hreverse, dropWhile_append_of_not hd]
  simp

end Text

namespace Sql

/-! ### Splitting -/

section

variable {c : Char} {front rest : List Char}

theorem splitFirst_of_not_mem (h : c ∉ front) : splitFirst [c] front = none := by
  induction front with
  | nil => rfl
  | cons d front ih =>
    obtain ⟨hd, hfront⟩ := not_or.mp (mt List.mem_cons.mpr h)
    simp [splitFirst, hd, ih hfront]

theorem splitFirst_append (h : c ∉ front) :
    splitFirst [c] (front ++ c :: rest) = some (front, rest) := by
  induction front with
  | nil => simp [splitFirst]
  | cons d front ih =>
    obtain ⟨hd, hfront⟩ := not_or.mp (mt List.mem_cons.mpr h)
    simp [splitFirst, hd, ih hfront]

theorem splitLast_of_not_mem (h : c ∉ front) : splitLast c front = none := by
  induction front with
  | nil => rfl
  | cons d front ih =>
    obtain ⟨hd, hfront⟩ := not_or.mp (mt List.mem_cons.mpr h)
    simp [splitLast, Ne.symm hd, ih hfront]

theorem splitLast_append (h : c ∉ rest) : splitLast c (front ++ c :: rest) = some (front, rest) := by
  induction front with
  | nil => simp [splitLast, splitLast_of_not_mem h]
  | cons d front ih => simp [splitLast, ih]

/-- A text that has a character has a last place of it. -/
theorem exists_last (h : c ∈ rest) : ∃ before after, rest = before ++ c :: after ∧ c ∉ after := by
  obtain ⟨before, after, hsplit, hnone⟩ := List.eq_append_cons_of_mem (List.mem_reverse.mpr h)
  refine ⟨after.reverse, before.reverse, ?_, by simpa using hnone⟩
  have hreverse := congrArg List.reverse hsplit
  simpa using hreverse

end

/-- What stands between a scheme and the rest of a URL. -/
def schemeEnd : List Char := [':', '/', '/']

/-- The scheme ends at the first place where one can end, since its end has no part that both begins
    and ends it. -/
theorem splitFirst_scheme {scheme : List Char} (h : Text.containsChars schemeEnd scheme = false)
    (body : List Char) : splitFirst schemeEnd (scheme ++ schemeEnd ++ body) = some (scheme, body) := by
  induction scheme with
  | nil => simp [splitFirst, schemeEnd]
  | cons c cs ih =>
    rw [Text.containsChars, Bool.or_eq_false_iff] at h
    have hprefix : schemeEnd.isPrefixOf (c :: (cs ++ schemeEnd ++ body)) = false := by
      match cs, h with
      | [], _ => simp [schemeEnd, List.isPrefixOf]
      | [d], _ => simp [schemeEnd, List.isPrefixOf]
      | d :: e :: cs, h => simpa [schemeEnd, List.isPrefixOf] using h.1
    rw [List.cons_append, List.cons_append, splitFirst, hprefix, ih h.2]
    simp

/-! ### Behind the scheme -/

/-- What is shown of the URL behind its scheme. -/
def redactedBody (body : List Char) : List Char :=
  match splitLast '@' body with
  | none => body
  | some (credentials, host) =>
    match splitFirst [':'] credentials with
    | none => body
    | some (user, _) => user ++ [':', '*', '*', '*', '@'] ++ host

theorem redactedChars_eq {scheme : List Char} (h : Text.containsChars schemeEnd scheme = false)
    (body : List Char) :
    redactedChars (scheme ++ schemeEnd ++ body) = scheme ++ schemeEnd ++ redactedBody body := by
  have hsplit : splitFirst [':', '/', '/'] (scheme ++ schemeEnd ++ body) = some (scheme, body) :=
    splitFirst_scheme h body
  unfold redactedChars redactedBody
  rw [hsplit]
  dsimp only
  cases splitLast '@' body with
  | none => rfl
  | some parts =>
    dsimp only
    cases splitFirst [':'] parts.1 <;> simp [schemeEnd]

/-- **Between the first `:` and the last `@`, nothing is shown.** -/
theorem redactedBody_eq {user tail : List Char} (huser : ':' ∉ user) (htail : '@' ∉ tail)
    (secret : List Char) :
    redactedBody (user ++ ':' :: secret ++ '@' :: tail) = user ++ [':', '*', '*', '*', '@'] ++ tail := by
  unfold redactedBody
  rw [splitLast_append htail]
  dsimp only
  rw [splitFirst_append huser]

/-- A text behind a `:` and in front of an `@` is hidden. -/
theorem redactedBody_hides {front rest : List Char} (hfront : ':' ∈ front) (hrest : '@' ∈ rest)
    (v w : List Char) : redactedBody (front ++ v ++ rest) = redactedBody (front ++ w ++ rest) := by
  obtain ⟨user, secret, rfl, huser⟩ := List.eq_append_cons_of_mem hfront
  obtain ⟨before, tail, rfl, htail⟩ := exists_last hrest
  have hbody : ∀ v : List Char, user ++ ':' :: secret ++ v ++ (before ++ '@' :: tail) =
      user ++ ':' :: (secret ++ v ++ before) ++ '@' :: tail := fun v => by simp
  rw [hbody, hbody, redactedBody_eq huser htail, redactedBody_eq huser htail]

/-- A text that has neither `:` nor `@`. -/
def Plain (text : List Char) : Prop := ':' ∉ text ∧ '@' ∉ text

/-- Every plain text at the place is shown as it is. -/
def Shown (front rest : List Char) : Prop :=
  ∃ before behind : List Char, ∀ v, Plain v →
    redactedBody (front ++ v ++ rest) = before ++ v ++ behind

/-- In front of the last at sign and of the first colon, a text is part of the user's name. -/
theorem shown_in_user {front rest : List Char} (hfront : ':' ∉ front) (hrest : '@' ∈ rest) :
    Shown front rest := by
  obtain ⟨before, tail, rfl, htail⟩ := exists_last hrest
  have hlast : ∀ v, splitLast '@' (front ++ v ++ (before ++ '@' :: tail)) =
      some (front ++ v ++ before, tail) := by
    intro v
    rw [← List.append_assoc (front ++ v)]
    exact splitLast_append htail
  by_cases hbefore : ':' ∈ before
  · obtain ⟨user, secret, rfl, huser⟩ := List.eq_append_cons_of_mem hbefore
    refine ⟨front, user ++ [':', '*', '*', '*', '@'] ++ tail, fun v hv => ?_⟩
    have hfirst : splitFirst [':'] (front ++ v ++ (user ++ ':' :: secret)) =
        some (front ++ v ++ user, secret) := by
      rw [← List.append_assoc (front ++ v)]
      exact splitFirst_append (by simp [hfront, hv.1, huser])
    simp only [redactedBody, hlast, hfirst]
    simp
  · refine ⟨front, before ++ '@' :: tail, fun v hv => ?_⟩
    have hfirst : splitFirst [':'] (front ++ v ++ before) = none :=
      splitFirst_of_not_mem (by simp [hfront, hv.1, hbefore])
    simp only [redactedBody, hlast, hfirst]

/-- Behind the last at sign, a text is part of the host or of what follows it. -/
theorem shown_in_tail {front rest : List Char} (hrest : '@' ∉ rest) : Shown front rest := by
  by_cases hfront : '@' ∈ front
  · obtain ⟨credentials, host, rfl, hhost⟩ := exists_last hfront
    have hlast : ∀ v, Plain v → splitLast '@' (credentials ++ '@' :: host ++ v ++ rest) =
        some (credentials, host ++ v ++ rest) := by
      intro v hv
      have hbody : credentials ++ '@' :: host ++ v ++ rest =
          credentials ++ '@' :: (host ++ v ++ rest) := by simp
      rw [hbody]
      exact splitLast_append (by simp [hhost, hv.2, hrest])
    cases hfirst : splitFirst [':'] credentials with
    | none =>
      refine ⟨credentials ++ '@' :: host, rest, fun v hv => ?_⟩
      simp only [redactedBody, hlast v hv, hfirst]
    | some parts =>
      refine ⟨parts.1 ++ [':', '*', '*', '*', '@'] ++ host, rest, fun v hv => ?_⟩
      simp only [redactedBody, hlast v hv, hfirst]
      simp
  · refine ⟨front, rest, fun v hv => ?_⟩
    have hlast : splitLast '@' (front ++ v ++ rest) = none :=
      splitLast_of_not_mem (by simp [hfront, hv.2, hrest])
    simp only [redactedBody, hlast]

/-- **Of the plain texts at a place, either all are hidden or each one is shown.** -/
theorem redactedBody_inj {front rest v w : List Char} (hv : Plain v) (hw : Plain w) :
    redactedBody (front ++ v ++ rest) = redactedBody (front ++ w ++ rest) ↔
      v = w ∨ (':' ∈ front ∧ '@' ∈ rest) := by
  constructor
  · intro hsame
    have hcases : (':' ∈ front ∧ '@' ∈ rest) ∨ Shown front rest := by
      by_cases hrest : '@' ∈ rest
      · by_cases hfront : ':' ∈ front
        · exact .inl ⟨hfront, hrest⟩
        · exact .inr (shown_in_user hfront hrest)
      · exact .inr (shown_in_tail hrest)
    rcases hcases with hhidden | ⟨before, behind, hshown⟩
    · exact .inr hhidden
    · rw [hshown v hv, hshown w hw, List.append_left_inj, List.append_right_inj] at hsame
      exact .inl hsame
  · rintro (rfl | ⟨hfront, hrest⟩)
    · rfl
    · exact redactedBody_hides hfront hrest v w

/-! ### URLs -/

/-- A URL with a password in front of the host; the tail is the host and all behind it. -/
def credentialsUrl (scheme user password tail : String) : String :=
  scheme ++ "://" ++ user ++ ":" ++ password ++ "@" ++ tail

/-- A URL with a password among its parameters. -/
def parameterUrl (scheme front password rest : String) : String :=
  scheme ++ "://" ++ front ++ "password=" ++ password ++ rest

section

variable {c c' : Config} {scheme : String}

theorem redactedUrl_eq (hscheme : Text.containsText scheme "://" = false) {body : List Char}
    {url : String} (hurl : url.toList = scheme.toList ++ schemeEnd ++ body) :
    { c with url := url }.redactedUrl =
      String.ofList (scheme.toList ++ schemeEnd ++ redactedBody body) := by
  unfold Config.redactedUrl
  rw [hurl, redactedChars_eq hscheme]

/-- Two URLs are shown alike exactly if they are behind the scheme. -/
theorem redactedUrl_eq_iff (hscheme : Text.containsText scheme "://" = false) {body body' : List Char}
    {url url' : String} (hurl : url.toList = scheme.toList ++ schemeEnd ++ body)
    (hurl' : url'.toList = scheme.toList ++ schemeEnd ++ body') :
    { c with url := url }.redactedUrl = { c with url := url' }.redactedUrl ↔
      redactedBody body = redactedBody body' := by
  rw [redactedUrl_eq hscheme hurl, redactedUrl_eq hscheme hurl', String.ofList_inj,
    List.append_right_inj]

theorem toList_credentialsUrl (scheme user password tail : String) :
    (credentialsUrl scheme user password tail).toList =
      scheme.toList ++ schemeEnd ++ (user.toList ++ ':' :: password.toList ++ '@' :: tail.toList) := by
  simp [credentialsUrl, schemeEnd]

theorem toList_parameterUrl (scheme front password rest : String) :
    (parameterUrl scheme front password rest).toList =
      scheme.toList ++ schemeEnd ++
        ((front ++ "password=").toList ++ password.toList ++ rest.toList) := by
  simp [parameterUrl, schemeEnd]

/-- The password in front of the host is hidden, whatever characters it has. -/
theorem credentials_hidden (hscheme : Text.containsText scheme "://" = false)
    (user v w tail : String) :
    { c with url := credentialsUrl scheme user v tail }.redactedUrl =
      { c with url := credentialsUrl scheme user w tail }.redactedUrl := by
  rw [redactedUrl_eq_iff hscheme (toList_credentialsUrl ..) (toList_credentialsUrl ..)]
  have hbody : ∀ v : List Char, user.toList ++ ':' :: v ++ '@' :: tail.toList =
      (user.toList ++ [':']) ++ v ++ '@' :: tail.toList := fun v => by simp
  rw [hbody, hbody]
  exact redactedBody_hides (by simp) (by simp) _ _

/-- With plain names around it, the password is replaced by stars and the rest of the URL is kept. -/
theorem redactedUrl_credentials (hscheme : Text.containsText scheme "://" = false)
    {user tail : String} (huser : ':' ∉ user.toList) (htail : '@' ∉ tail.toList) (password : String) :
    { c with url := credentialsUrl scheme user password tail }.redactedUrl =
      credentialsUrl scheme user "***" tail := by
  rw [redactedUrl_eq hscheme (toList_credentialsUrl ..), redactedBody_eq huser htail,
    ← String.toList_inj, String.toList_ofList, toList_credentialsUrl]
  simp

/-! ### From options to log lines -/

/-- The blanks at the ends of a URL are in its scheme and in its tail. -/
theorem trim_credentialsUrl (scheme user tail : String) :
    ∃ tail' : String, ∀ password, Text.trim (credentialsUrl scheme user password tail) =
      credentialsUrl (String.ofList (scheme.toList.dropWhile Text.isBlank)) user password tail' := by
  refine ⟨String.ofList (tail.toList.reverse.dropWhile Text.isBlank).reverse, fun password => ?_⟩
  rw [← String.toList_inj]
  unfold Text.trim
  have hbetween : (credentialsUrl scheme user password tail).toList = scheme.toList ++
      ':' :: ('/' :: '/' :: user.toList ++ ':' :: password.toList) ++ '@' :: tail.toList := by
    rw [toList_credentialsUrl]
    simp [schemeEnd]
  rw [String.toList_ofList, hbetween, Text.trimChars_between (by decide) (by decide),
    toList_credentialsUrl]
  simp [schemeEnd]

theorem credentialsUrl_isEmpty (scheme user password tail : String) :
    (credentialsUrl scheme user password tail).isEmpty = false := by
  simp [credentialsUrl]

/-- The settings from the options hide the password in front of the host, too. -/
theorem ofOptions_hides (hscheme : Text.containsText scheme "://" = false) (o : Options)
    (user v w tail : String) :
    (Config.ofOptions (credentialsUrl scheme user v tail) o).map Config.redactedUrl =
      (Config.ofOptions (credentialsUrl scheme user w tail) o).map Config.redactedUrl := by
  obtain ⟨tail', htrim⟩ := trim_credentialsUrl scheme user tail
  have hscheme' : Text.containsText (String.ofList (scheme.toList.dropWhile Text.isBlank)) "://" =
      false := by
    have hchars := String.toList_ofList (l := scheme.toList.dropWhile Text.isBlank)
    unfold Text.containsText at hscheme ⊢
    rw [hchars]
    exact Text.containsChars_of_suffix (List.dropWhile_suffix _) hscheme
  have hmap : ∀ password,
      (Config.ofOptions (credentialsUrl scheme user password tail) o).map Config.redactedUrl =
        .ok (Config.redactedUrl ⟨credentialsUrl
          (String.ofList (scheme.toList.dropWhile Text.isBlank)) user password tail', o.database,
          o.maxConnections, o.pageSize⟩) := by
    intro password
    unfold Config.ofOptions
    rw [htrim]
    simp only [credentialsUrl_isEmpty]
    rfl
  rw [hmap, hmap]
  exact congrArg Except.ok (credentials_hidden (c := ⟨"", o.database, o.maxConnections, o.pageSize⟩)
    hscheme' user v w tail')

/-- Once the URL is read, connecting uses what is shown of it only. -/
theorem connect_congr (readUrl : String → Except Fault Unit) (d : Dialect)
    (hshown : c.redactedUrl = c'.redactedUrl) (hconnections : c.maxConnections = c'.maxConnections)
    (hread : readUrl c.url = readUrl c'.url) : connect readUrl d c = connect readUrl d c' := by
  unfold connect
  rw [hread, hshown, hconnections]

theorem driver_congr {σ : Type} (service : Service σ) (d : Dialect)
    (hshown : c.redactedUrl = c'.redactedUrl) (hsize : c.pageSize = c'.pageSize) :
    driver service d c = driver service d c' := by
  unfold driver
  rw [hshown, hsize]

end

/-- **What is hidden of a URL.**

    A password in front of the host is hidden: the redacted URL is the same for any two passwords,
    and so are the driver and, if both URLs are read alike, the program that connects it, with all
    that they log.  If the names around it are plain, the redacted URL is the URL with stars for the
    password.

    A password among the parameters is hidden only between a colon and an at sign.  Elsewhere two
    plain passwords are never shown alike. -/
theorem redaction_exact {σ : Type} (readUrl : String → Except Fault Unit) (service : Service σ)
    (d : Dialect) (c : Config) (o : Options) (scheme : String)
    (hscheme : Text.containsText scheme "://" = false) :
    (∀ user v w tail : String,
      { c with url := credentialsUrl scheme user v tail }.redactedUrl =
        { c with url := credentialsUrl scheme user w tail }.redactedUrl ∧
      (Config.ofOptions (credentialsUrl scheme user v tail) o).map Config.redactedUrl =
        (Config.ofOptions (credentialsUrl scheme user w tail) o).map Config.redactedUrl ∧
      driver service d { c with url := credentialsUrl scheme user v tail } =
        driver service d { c with url := credentialsUrl scheme user w tail } ∧
      (readUrl (credentialsUrl scheme user v tail) = readUrl (credentialsUrl scheme user w tail) →
        connect readUrl d { c with url := credentialsUrl scheme user v tail } =
          connect readUrl d { c with url := credentialsUrl scheme user w tail })) ∧
    (∀ user password tail : String, ':' ∉ user.toList → '@' ∉ tail.toList →
      { c with url := credentialsUrl scheme user password tail }.redactedUrl =
        credentialsUrl scheme user "***" tail) ∧
    (∀ front rest : String, ':' ∈ front.toList → '@' ∈ rest.toList → ∀ v w : String,
      { c with url := parameterUrl scheme front v rest }.redactedUrl =
        { c with url := parameterUrl scheme front w rest }.redactedUrl) ∧
    (∀ front v w rest : String, Plain v.toList → Plain w.toList →
      ({ c with url := parameterUrl scheme front v rest }.redactedUrl =
        { c with url := parameterUrl scheme front w rest }.redactedUrl ↔
          v = w ∨ (':' ∈ front.toList ∧ '@' ∈ rest.toList))) := by
  refine ⟨fun user v w tail => ?_, fun user password tail huser htail =>
    redactedUrl_credentials hscheme huser htail password, fun front rest hfront hrest v w => ?_,
    fun front v w rest hv hw => ?_⟩
  · have hhidden : { c with url := credentialsUrl scheme user v tail }.redactedUrl =
        { c with url := credentialsUrl scheme user w tail }.redactedUrl :=
      credentials_hidden hscheme user v w tail
    exact ⟨hhidden, ofOptions_hides hscheme o user v w tail, driver_congr service d hhidden rfl,
      connect_congr readUrl d hhidden rfl⟩
  · rw [redactedUrl_eq_iff hscheme (toList_parameterUrl ..) (toList_parameterUrl ..)]
    exact redactedBody_hides (by simp [hfront]) hrest _ _
  · rw [redactedUrl_eq_iff hscheme (toList_parameterUrl ..) (toList_parameterUrl ..),
      redactedBody_inj hv hw, String.toList_inj]
    simp

theorem redaction_exact_postgres :
    Text.containsText "postgres" "://" = false ∧
    Config.redactedUrl ⟨credentialsUrl "postgres" "root" "a:b@c/d?e://f" "db/kv?x=@1", none, 10, 1000⟩ =
      Config.redactedUrl ⟨credentialsUrl "postgres" "root" "" "db/kv?x=@1", none, 10, 1000⟩ ∧
    Config.redactedUrl ⟨credentialsUrl "postgres" "root" "s3cret" "db:5432/kv", none, 10, 1000⟩ =
      credentialsUrl "postgres" "root" "***" "db:5432/kv" ∧
    Config.redactedUrl ⟨parameterUrl "postgres" "db:5432/kv?" "s3cret" "&x=@", none, 10, 1000⟩ =
      Config.redactedUrl ⟨parameterUrl "postgres" "db:5432/kv?" "other" "&x=@", none, 10, 1000⟩ ∧
    Config.redactedUrl ⟨parameterUrl "postgres" "app@db:5432/kv?" "s3cret" "", none, 10, 1000⟩ ≠
      Config.redactedUrl ⟨parameterUrl "postgres" "app@db:5432/kv?" "other" "", none, 10, 1000⟩ := by
  have hscheme : Text.containsText "postgres" "://" = false := by decide
  have hexact := redaction_exact (fun _ => .ok ()) (Server.service .postgres) .postgres
    ⟨"", none, 10, 1000⟩ {} "postgres" hscheme
  refine ⟨hscheme, ?_, ?_, ?_, ?_⟩
  · exact (hexact.1 "root" "a:b@c/d?e://f" "" "db/kv?x=@1").1
  · exact hexact.2.1 "root" "s3cret" "db:5432/kv" (by decide) (by decide)
  · exact hexact.2.2.1 "db:5432/kv?" "&x=@" (by decide) (by decide) "s3cret" "other"
  · rw [Ne, hexact.2.2.2 "app@db:5432/kv?" "s3cret" "other" "" ⟨by decide, by decide⟩
      ⟨by decide, by decide⟩]
    decide

/-- With nothing but the host around it, a password among the parameters is shown. -/
theorem parameter_password_shown :
    (Config.redactedUrl ⟨"postgres://app@db/kv?password=s3cret", none, 10, 1000⟩ =
      "postgres://app@db/kv?password=s3cret") ∧
    Config.redactedUrl ⟨"postgres://app@db/kv?password=s3cret", none, 10, 1000⟩ ≠
      Config.redactedUrl ⟨"postgres://app@db/kv?password=other", none, 10, 1000⟩ := by
  decide

end Sql

end BucketStore

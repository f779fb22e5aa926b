/-
That the two ends agree on their credentials.

What one end fetches as its own the other recognises, in whichever of the two forms
libedhoc carries the identifier across: both then hold the same identifier and the
same credential, so they compute their MACs over the same bytes, and the public key
taken for the peer is the one in that credential, whose private half the peer imported.
The credential is canonical CBOR and says all of this itself.

The last section is about the text of the headers: a C array reads back as the bytes
it was written from.
-/
import UsbNcmNet.Edhoc.Keys
import UsbNcmNet.Lib.CText
import UsbNcmNet.Proofs.Credentials

namespace UsbNcmNet

variable {n m : Nat} {dumps : Cbor.Value → Bytes}

/-! ### The credential -/

theorem claims_sorted (subject : String) (kid pub : Bytes) : (claims subject kid pub).Sorted := by
  have hcose : (coseKey kid pub).Sorted := by
    have hkeys : [[1], [2], [0x20], [0x21]].Pairwise Cbor.keyLt := by decide
    exact ⟨hkeys, trivial, trivial, trivial, trivial, trivial, trivial, trivial, trivial, trivial⟩
  have hkeys : [[2], [8]].Pairwise Cbor.keyLt := by decide
  have hkey : [[1]].Pairwise Cbor.keyLt := by decide
  exact ⟨hkeys, trivial, trivial, trivial, ⟨hkey, trivial, hcose, trivial⟩, trivial⟩

theorem claims_fits {subject : String} {kid pub : Bytes}
    (hsubject : (utf8 subject.toList).length < 256 ^ 8) (hkid : kid.length < 256 ^ 8)
    (hpub : pub.length < 256 ^ 8) : (claims subject kid pub).Fits := by
  have hcose : (coseKey kid pub).Fits := by
    simpa [coseKey, dict, Cbor.Value.Fits, Cbor.Entries.Fits, Cbor.Entries.length] using
      And.intro hkid hpub
  simpa [claims, dict, Cbor.Value.Fits, Cbor.Entries.Fits, Cbor.Entries.length] using
    And.intro hsubject hcose

theorem subject_fits : (utf8 subjectI.toList).length < 256 ^ 8 ∧
    (utf8 subjectR.toList).length < 256 ^ 8 := by
  constructor
  · decide
  · decide

/-- **A credential says whose it is**: one item of canonical CBOR that reads back as its claims. -/
theorem ccs_reads_back (hdumps : Deterministic dumps) {subject : String} {kid pub : Bytes}
    (hfits : (claims subject kid pub).Fits) :
    Cbor.WellFormed (ccs dumps subject kid pub) ∧
      Cbor.decode (ccs dumps subject kid pub) = some (claims subject kid pub) := by
  have hccs : ccs dumps subject kid pub = (claims subject kid pub).encode :=
    hdumps _ hfits (claims_sorted subject kid pub)
  rw [hccs]
  exact ⟨Cbor.Value.wellFormed _ hfits, Cbor.decode_encode hfits⟩

/-! ### Fetching and recognising -/

/-- What `cred_fetch` leaves when the key store takes the key. -/
theorem credFetch_ran (own : OwnMacros) (s : FetchState n) :
    ∃ f, credFetch own EDHOC_SUCCESS s = (.success, f) ∧ f.label = EDHOC_COSE_HEADER_KID ∧
      f.keyId.encodeType = .byteString ∧ f.keyId.bytes = [own.edKid] ∧
      f.keyId.cred = own.edCred ∧ f.keyId.credLen = own.edCred.length ∧
      f.keyId.credIsCbor = true ∧ f.privKey = own.edPriv :=
  ⟨_, rfl, rfl, rfl, (bytes_eq_singleton_iff _ _).mpr ⟨rfl, Vector.getElem_set_self _⟩, rfl, rfl,
    rfl, rfl⟩

/--
libedhoc carries an identifier across: as the byte string it is, or as the integer
whose encoding that byte string is.
-/
def Carried (f : FetchState n) (s : VerifyState m) : Prop :=
  s.label = f.label ∧
    match s.keyId.encodeType with
    | .integer => Cbor.encodeInt s.keyId.keyIdInt = f.keyId.bytes
    | .byteString => s.keyId.bytes = f.keyId.bytes

/-- What goes into the MAC about the holder of a credential: ID_CRED_x and CRED_x. -/
def KeyId.context (label : Int) (k : KeyId n) : Int × EncodeType × Bytes × Bytes × Nat × Bool :=
  (label, k.encodeType, k.bytes, k.cred, k.credLen, k.credIsCbor)

theorem presents_iff_of_carried {own : OwnMacros} {f : FetchState n} {s : VerifyState m}
    (h : Carried (credFetch own EDHOC_SUCCESS f).2 s) (kid : UInt8) :
    Presents kid s ↔ kid = own.edKid := by
  obtain ⟨f', hf', hlabel, -, hbytes, -⟩ := credFetch_ran own f
  rw [hf'] at h
  unfold Carried at h
  rw [hlabel, hbytes] at h
  obtain ⟨hs, hid⟩ := h
  unfold Presents
  cases hform : s.keyId.encodeType with
  | integer =>
      rw [hform] at hid
      dsimp only at hid ⊢
      rw [hid]
      simp [hs, eq_comm]
  | byteString =>
      rw [hform] at hid
      dsimp only at hid ⊢
      rw [hid]
      simp [hs, eq_comm]

section

variable {kid : UInt8} {cred g : Bytes} {verify : VerifyState m → VerifyResult × VerifyState m}

/-- A `cred_verify` that compiles does what it should, with the header of the script. -/
theorem credVerify_decides
    (h : credVerify ⟨kid, interpolate (kidWireInt kid), cred, g⟩ = some verify)
    (s : VerifyState m) :
    (Presents kid s ∧
        verify s = (.success, s.accept ⟨kid, interpolate (kidWireInt kid), cred, g⟩)) ∨
      (¬ Presents kid s ∧ (verify s).1 = .credentialsFailure) := by
  cases hv : kidWireInt kid with
  | none => simp [hv, credVerify, interpolate] at h
  | some v =>
      rw [hv] at h
      obtain ⟨f, hf, hran⟩ :=
        @credVerify_ran m ⟨kid, interpolate (some v), cred, g⟩ v rfl
      obtain rfl : f = verify := Option.some.inj (hf.symm.trans h)
      rcases hran s with ⟨haccept, hs⟩ | ⟨hreject, hs⟩
      · exact .inl ⟨(accepts_iff_presents hv s).mp haccept, hs⟩
      · exact .inr ⟨mt (accepts_iff_presents hv s).mpr hreject, by rw [hs]⟩

end

/--
One end recognises the other by the credential that the other fetches: both take the
same context into the MAC, and the key pair is the one the credential speaks of.
-/
structure Recognises (own : OwnMacros) (verify : VerifyState m → VerifyResult × VerifyState m)
    (subject : String) (pair : KeyPair) (f : FetchState n) (s : VerifyState m) : Prop where
  fetched : (credFetch own EDHOC_SUCCESS f).1 = .success
  verified : (verify s).1 = .success
  context : (verify s).2.keyId.context (verify s).2.label
    = (credFetch own EDHOC_SUCCESS f).2.keyId.context (credFetch own EDHOC_SUCCESS f).2.label
  keys : (credFetch own EDHOC_SUCCESS f).2.privKey = pair.priv.toList ∧
    (verify s).2.publicKey = pair.pub.toList
  credential : Cbor.WellFormed (verify s).2.keyId.cred ∧ Cbor.decode (verify s).2.keyId.cred
    = some (claims subject (verify s).2.keyId.bytes (verify s).2.publicKey)

/-- One direction, whichever end is which. -/
theorem recognises (hdumps : Deterministic dumps) {subject : String}
    (hsubject : (utf8 subject.toList).length < 256 ^ 8) {kid : UInt8} {pair : KeyPair}
    {verify : VerifyState m → VerifyResult × VerifyState m}
    (hverify : credVerify ⟨kid, interpolate (kidWireInt kid),
      ccs dumps subject [kid] pair.pub.toList, pair.pub.toList⟩ = some verify)
    {f : FetchState n} {s : VerifyState m}
    (h : Carried (credFetch ⟨kid, ccs dumps subject [kid] pair.pub.toList, pair.priv.toList⟩
      EDHOC_SUCCESS f).2 s) :
    Recognises ⟨kid, ccs dumps subject [kid] pair.pub.toList, pair.priv.toList⟩ verify subject
      pair f s := by
  have hpresents := (presents_iff_of_carried h kid).mpr rfl
  rcases credVerify_decides hverify s with ⟨-, hs⟩ | ⟨hnot, -⟩
  · have hplace := peerInPlace_accept ⟨kid, interpolate (kidWireInt kid),
      ccs dumps subject [kid] pair.pub.toList, pair.pub.toList⟩ s
    obtain ⟨f', hf', hlabel, hform, hbytes, hcred, hlen, hcbor, hpriv⟩ := credFetch_ran
      ⟨kid, ccs dumps subject [kid] pair.pub.toList, pair.priv.toList⟩ f
    have hfits : (claims subject [kid] pair.pub.toList).Fits :=
      claims_fits hsubject (by simp) (by simp)
    refine ⟨by rw [hf'], by rw [hs], ?_, ⟨by rw [hf', hpriv], by rw [hs, hplace.publicKey.1]⟩, ?_⟩
    · rw [hs, hf']
      unfold KeyId.context
      dsimp only
      rw [hplace.encodeType, hplace.bytes, hplace.cred.1, hplace.cred.2.1, hplace.cred.2.2, hlabel,
        hform, hbytes, hcred, hlen, hcbor]
      show (s.label, _) = _
      rw [hpresents.1]
    · rw [hs, hplace.cred.1, hplace.bytes, hplace.publicKey.1]
      exact ccs_reads_back hdumps hfits
  · exact absurd hpresents hnot

/-- Whose identifier an end accepts, when it is one the other or the end itself fetches. -/
theorem accepts_iff_kid {kid : UInt8} {cred g : Bytes}
    {verify : VerifyState m → VerifyResult × VerifyState m}
    (hverify : credVerify ⟨kid, interpolate (kidWireInt kid), cred, g⟩ = some verify)
    {own : OwnMacros} {f : FetchState n} {s : VerifyState m}
    (h : Carried (credFetch own EDHOC_SUCCESS f).2 s) :
    (verify s).1 = .success ↔ kid = own.edKid := by
  rw [← presents_iff_of_carried h kid]
  rcases credVerify_decides hverify s with ⟨hpresents, hs⟩ | ⟨hnot, hs⟩
  · rw [hs]
    exact iff_of_true rfl hpresents
  · rw [hs]
    exact iff_of_false (by simp) hnot

/--
**The two ends agree on their credentials**, whatever the kids and the keys, if only the
two programs compile.  Each recognises the other by what the other fetches, and accepts
its own identifier, sent back to it, only if the script gives both the same kid.
-/
theorem ends_agree (hdumps : Deterministic dumps) (kidI kidR : UInt8) (i r : KeyPair)
    (device client : VerifyState m → VerifyResult × VerifyState m)
    (hdevice : deviceCredVerify (keyConfig dumps kidI kidR i r) = some device)
    (hclient : clientCredVerify (keyConfig dumps kidI kidR i r) = some client) :
    let deviceMacros := deviceOwn (keyConfig dumps kidI kidR i r) r
    let clientMacros := clientOwn (keyConfig dumps kidI kidR i r) i
    (∀ (f : FetchState n) s, Carried (credFetch clientMacros EDHOC_SUCCESS f).2 s →
      Recognises clientMacros device subjectI i f s ∧
        ((client s).1 = .success ↔ kidR = kidI)) ∧
    (∀ (f : FetchState n) s, Carried (credFetch deviceMacros EDHOC_SUCCESS f).2 s →
      Recognises deviceMacros client subjectR r f s ∧
        ((device s).1 = .success ↔ kidI = kidR)) := by
  intro deviceMacros clientMacros
  constructor
  · intro f s h
    exact ⟨recognises hdumps subject_fits.1 hdevice h, accepts_iff_kid hclient h⟩
  · intro f s h
    exact ⟨recognises hdumps subject_fits.2 hclient h, accepts_iff_kid hdevice h⟩

/-! #### The deployment -/

def sampleI : KeyPair := ⟨Vector.replicate 32 1, Vector.replicate 32 2⟩

def sampleR : KeyPair := ⟨Vector.replicate 32 3, Vector.replicate 32 4⟩

/-- The kids of the repository, with keys made up. -/
def sampleConfig : KeyConfig := keyConfig Cbor.Value.encode 0x2a 0x2b sampleI sampleR

def sampleKeyId (v : Int) : KeyId 0 where
  encodeType := .integer
  keyIdInt := v
  keyIdBstr := Vector.replicate 1 0
  keyIdBstrLength := 0
  cred := []
  credLen := 0
  credIsCbor := false
  length_le := by decide

/-- The kid 0x2a arrives as -11, and the device finds the key of the client. -/
theorem ends_agree_deployed :
    ((deviceCredVerify sampleConfig).get rfl ⟨4, sampleKeyId (-11), [], 0⟩).2.publicKey
      = List.replicate 32 2 :=
  ((ends_agree (fun _ _ _ => rfl) 0x2a 0x2b sampleI sampleR
    ((deviceCredVerify sampleConfig).get rfl) ((clientCredVerify sampleConfig).get rfl)
    (Option.some_get _).symm (Option.some_get _).symm).1 ⟨0, sampleKeyId 0, []⟩
      ⟨4, sampleKeyId (-11), [], 0⟩ ⟨rfl, rfl⟩).1.keys.2

/-! ### The arrays of the headers -/

open CText

/-- What `c_array` is given. -/
structure ArrayText where
  name : List Char
  data : Bytes
  comment : Option (List Char)
  deriving DecidableEq, Repr

/-- The line or the lines of a header that define the array. -/
def ArrayText.text (a : ArrayText) : List Char := cArray a.name a.data a.comment ++ ['\n']

/-- What C asks of them: a name, something to initialise the array with, and a comment that is one. -/
structure ArrayText.Valid (a : ArrayText) : Prop where
  name : IsIdentifier a.name
  data : a.data ≠ []
  comment : ∀ c, a.comment = some c → IsComment c

theorem hexValue_digitChar {d : Nat} (hd : d < 16) : hexValue (Nat.digitChar d) = some d := by
  have hall : ∀ d, d < 16 → hexValue (Nat.digitChar d) = some d := by decide
  exact hall d hd

theorem readConstant_hexByte (b : UInt8) : readConstant (hexByte b) = some b := by
  have hb := b.toNat_lt
  rw [hexByte, readConstant, hexValue_digitChar (by omega), hexValue_digitChar (by omega)]
  dsimp only [Option.bind_eq_bind, Option.bind_some, Option.pure_def]
  rw [Nat.div_add_mod, UInt8.ofNat_toNat]

/-- The byte of a constant that has one. -/
def constantValue (w : List Char) : UInt8 := (readConstant w).getD 0

theorem isWordChar_hexByte (b : UInt8) : (hexByte b).all isWordChar = true := by
  have hdigit : ∀ d, d < 16 → isWordChar (Nat.digitChar d) = true := by decide
  have hb := b.toNat_lt
  have hhigh := hdigit (b.toNat / 16) (by omega)
  have hlow := hdigit (b.toNat % 16) (by omega)
  rw [hexByte, List.all_cons, List.all_cons, List.all_cons, List.all_cons, hhigh, hlow]
  rfl

/-- The declaration up to its semicolon. -/
def ArrayText.line (a : ArrayText) : List Char :=
  '\t' :: arrayHead ++ (a.name ++ (['[', ']', ' ', '=', ' ', '\x7b'] ++
    (List.intercalate [',', ' '] (a.data.map hexByte) ++ ['\x7d'])))

/-- The words of its initialiser. -/
def ArrayText.words (a : ArrayText) : List (List Char) := a.data.map hexByte

theorem ArrayText.words_spec (a : ArrayText) :
    ∀ w ∈ a.words, (w ≠ [] ∧ w.all isWordChar = true) ∧
      readConstant w = some (constantValue w) := by
  intro w hw
  obtain ⟨b, -, rfl⟩ := List.mem_map.mp hw
  refine ⟨⟨by simp [hexByte], isWordChar_hexByte b⟩, ?_⟩
  rw [constantValue, readConstant_hexByte]
  rfl

theorem ArrayText.plain_line (a : ArrayText) (hname : IsIdentifier a.name) : Plain a.line := by
  have hhead : Plain ('\t' :: arrayHead) := rfl
  have hopen : Plain ['[', ']', ' ', '=', ' ', '\x7b'] := rfl
  have hsep : Plain [',', ' '] := rfl
  have hclose : Plain ['\x7d'] := rfl
  have hwords := plain_intercalate hsep fun w hw => plain_word (a.words_spec w hw).1.2
  exact hhead.append ((plain_word hname.chars).append (hopen.append (hwords.append hclose)))

/-- A comment, if there is one to be written, and the declaration. -/
theorem ArrayText.text_eq (a : ArrayText) :
    a.text = a.line ++ [';', '\n'] ∨
      ∃ c, a.comment = some c ∧
        a.text = ['\t', '/', '*', ' '] ++ (c ++ [' ', '*', '/', '\n']) ++ (a.line ++ [';', '\n']) := by
  unfold ArrayText.text cArray ArrayText.line
  dsimp only
  split
  · rename_i c cs hcomment
    refine .inr ⟨c :: cs, hcomment, ?_⟩
    simp only [List.append_assoc, List.cons_append, List.nil_append]
  · refine .inl ?_
    simp only [List.append_assoc, List.cons_append, List.nil_append]

theorem arrayHead_eq : arrayHead
    = "static".toList ++ (' ' :: ("const".toList ++ (' ' :: ("uint8_t".toList ++ [' '])))) := by
  decide

/-- What the tokens of a declaration are, whatever stands behind it. -/
theorem ArrayText.tokens_line (a : ArrayText) (hname : IsIdentifier a.name) (rest : List Char) :
    tokens (a.line ++ ';' :: rest) = definitionTokens a.name a.words ++ tokens rest := by
  have hne : a.name ≠ [] := by
    intro hnil
    have hfirst := hname.first
    rw [hnil] at hfirst
    simp at hfirst
  have hwords : tokens (List.intercalate [',', ' '] a.words ++ '\x7d' :: ';' :: rest)
      = elementTokens a.words ++ .punct '\x7d' :: .punct ';' :: tokens rest := by
    rw [tokens_intercalate (fun w hw => (a.words_spec w hw).1) rfl,
      tokens_punct (by decide) (by decide), tokens_punct (by decide) (by decide)]
  have hbrackets : tokens ('[' :: ']' :: ' ' :: '=' :: ' ' :: '\x7b' ::
        (List.intercalate [',', ' '] a.words ++ '\x7d' :: ';' :: rest))
      = .punct '[' :: .punct ']' :: .punct '=' :: .punct '\x7b' ::
        (elementTokens a.words ++ .punct '\x7d' :: .punct ';' :: tokens rest) := by
    rw [tokens_punct (by decide) (by decide), tokens_punct (by decide) (by decide),
      tokens_blank (by decide), tokens_punct (by decide) (by decide), tokens_blank (by decide),
      tokens_punct (by decide) (by decide), hwords]
  unfold ArrayText.line definitionTokens
  rw [arrayHead_eq]
  simp only [List.append_assoc, List.cons_append, List.nil_append]
  rw [tokens_blank rfl, tokens_word (by decide) rfl rfl, tokens_blank rfl,
    tokens_word (by decide) rfl rfl, tokens_blank rfl, tokens_word (by decide) rfl rfl,
    tokens_blank rfl, tokens_word hne hname.chars rfl]
  rw [← ArrayText.words, hbrackets]

/-- No line of it ends in a backslash. -/
theorem ArrayText.splice_text {a : ArrayText} (h : a.Valid) (rest : List Char) :
    splice (a.text ++ rest) = a.text ++ splice rest := by
  have hline : splice (a.line ++ ';' :: '\n' :: rest) = a.line ++ ';' :: '\n' :: splice rest :=
    splice_line (a.plain_line h.name).oneLine (by decide) (by decide) rest
  rcases a.text_eq with htext | ⟨c, hc, htext⟩
  · rw [htext]
    simpa using hline
  · have hcomment : '\n' ∉ ['\t', '/', '*', ' '] ++ (c ++ [' ', '*']) := by
      simpa using (h.comment c hc).oneLine
    have hfirst := splice_line hcomment (by decide : '/' ≠ '\\') (by decide)
      (a.line ++ ';' :: '\n' :: rest)
    rw [hline] at hfirst
    rw [htext]
    simpa using hfirst

/-- What is left of a declaration without its comment, and its tokens. -/
theorem ArrayText.code {a : ArrayText} (h : a.Valid) :
    ∃ code, (∀ rest, uncomment false (a.text ++ rest) = (uncomment false rest).map (code ++ ·)) ∧
      ∀ rest, tokens (code ++ rest) = definitionTokens a.name a.words ++ tokens rest := by
  have hplain := (a.plain_line h.name).no_slash
  have hcode : '/' ∉ a.line ++ [';', '\n'] := by simpa using hplain
  have htokens : ∀ rest, tokens (a.line ++ [';', '\n'] ++ rest)
      = definitionTokens a.name a.words ++ tokens rest := by
    intro rest
    have hline := a.tokens_line h.name ('\n' :: rest)
    rw [tokens_blank (by decide)] at hline
    simpa using hline
  rcases a.text_eq with htext | ⟨c, hc, htext⟩
  · refine ⟨a.line ++ [';', '\n'], ?_, htokens⟩
    intro rest
    rw [htext, uncomment_code hcode]
  · refine ⟨['\t', ' ', '\n'] ++ (a.line ++ [';', '\n']), ?_, htokens⟩
    intro rest
    have hcomment : uncomment true (' ' :: (c ++ ' ' :: '*' :: '/' ::
          ('\n' :: (a.line ++ [';', '\n']) ++ rest)))
        = uncomment false ('\n' :: (a.line ++ [';', '\n']) ++ rest) := by
      rw [uncomment, uncomment_comment (h.comment c hc).unclosed]
      simp
    have hline : uncomment false ('\n' :: (a.line ++ [';', '\n']) ++ rest)
        = (uncomment false rest).map ('\n' :: (a.line ++ [';', '\n']) ++ ·) :=
      uncomment_code (by simpa using hplain) rest
    have hshape : a.text ++ rest = '\t' :: '/' :: '*' :: ' ' :: (c ++ ' ' :: '*' :: '/' ::
        ('\n' :: (a.line ++ [';', '\n']) ++ rest)) := by
      rw [htext]
      simp
    rw [hshape, uncomment_cons (by decide), uncomment, hcomment, hline, Option.map_map,
      Option.map_map]
    rfl

/-- What is left of a text of declarations, and its tokens. -/
theorem header_code {arrays : List ArrayText} (h : ∀ a ∈ arrays, a.Valid) :
    ∃ code, uncomment false (splice (arrays.flatMap ArrayText.text)) = some code ∧
      tokens code = arrays.flatMap fun a => definitionTokens a.name a.words := by
  induction arrays with
  | nil => exact ⟨[], rfl, rfl⟩
  | cons a arrays ih =>
      have ha := h a List.mem_cons_self
      obtain ⟨code, hcode, htokens⟩ := ih fun a ha => h a (List.mem_cons_of_mem _ ha)
      obtain ⟨first, hfirst, hread⟩ := ArrayText.code ha
      refine ⟨first ++ code, ?_, ?_⟩
      · rw [List.flatMap_cons, ArrayText.splice_text ha, hfirst, hcode]
        rfl
      · rw [hread, htokens]
        rfl

/--
**The arrays of a header read back.**  Whatever arrays `c_array` is given, with names that
are identifiers, none twice, some bytes each, and comments that neither end early nor run
over a line: a C compiler reads the lines it writes, one array behind the other, as
definitions of exactly those names and bytes.
-/
theorem read_cArrays (arrays : List ArrayText) (hvalid : ∀ a ∈ arrays, a.Valid)
    (hnames : (arrays.map ArrayText.name).Nodup) :
    CText.read (arrays.flatMap ArrayText.text) = some (arrays.map fun a => (a.name, a.data)) := by
  obtain ⟨code, hcode, htokens⟩ := header_code hvalid
  have hread := @read_definitions constantValue (arrays.flatMap ArrayText.text) code
    (arrays.map fun a => (a.name, a.words)) hcode (by rw [htokens, List.flatMap_map])
    (by simpa using fun a ha => (hvalid a ha).name) (by rwa [List.map_map])
    (by simpa [ArrayText.words] using fun a ha => (hvalid a ha).data)
    (by simpa using fun a ha w hw => (a.words_spec w hw).2)
  rw [hread, List.map_map]
  refine congrArg some (List.map_congr_left fun a _ => ?_)
  show (a.name, (a.data.map hexByte).map constantValue) = (a.name, a.data)
  rw [List.map_map]
  refine congrArg _ (List.map_id'' (fun b => ?_) a.data)
  show (readConstant (hexByte b)).getD 0 = b
  rw [readConstant_hexByte]
  rfl

/-- Two arrays of a header, one behind a comment with a star and a slash in it. -/
def sampleArrays : List ArrayText :=
  [⟨"ED_G_I".toList, [0x2a, 0xff], some "X25519 * / u".toList⟩, ⟨"ED_KID_1".toList, [7], none⟩]

theorem read_cArrays_two :
    CText.read (sampleArrays.flatMap ArrayText.text)
      = some [("ED_G_I".toList, [0x2a, 0xff]), ("ED_KID_1".toList, [7])] := by
  have hvalid : ∀ a ∈ sampleArrays, a.Valid := by
    intro a ha
    simp only [sampleArrays, List.mem_cons, List.not_mem_nil, or_false] at ha
    rcases ha with rfl | rfl
    · exact ⟨by decide, by decide, fun c hc => by
        obtain rfl := Option.some.inj hc
        exact ⟨by decide, by decide⟩⟩
    · exact ⟨by decide, by decide, fun c hc => by simp at hc⟩
  exact read_cArrays sampleArrays hvalid (by decide)

end UsbNcmNet

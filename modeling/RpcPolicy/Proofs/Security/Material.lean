import RpcPolicy.Proofs.Security.Stages
import RpcPolicy.Security.Handshake
/-! What the files of security material hold, and the stages in which they are looked at. Main
statement: the failure is that of the first stage that fails, the files that are opened are those
of the stages up to it, and no other file matters. -/

namespace RpcPolicy

open Resolution (Stage)

namespace Toolkit

variable (kit : Toolkit) {path : String}

/-! ### What files hold -/

/-- Why a file gives no certificates. -/
inductive CertificateFault (path : String) : FileFault → Prop
  | unreadable {e : DiskError} (read : kit.disk path = .error e) :
      CertificateFault path (.unreadable e)
  | malformed {bytes : List UInt8} {e : Pem.Error} (read : kit.disk path = .ok bytes)
      (sections : kit.certificates bytes = .error e) : CertificateFault path (.malformed e)
  | none {bytes : List UInt8} (read : kit.disk path = .ok bytes)
      (sections : kit.certificates bytes = .ok []) : CertificateFault path .noCertificates

/-- Why a file gives no private key. -/
inductive KeyFault (path : String) : FileFault → Prop
  | unreadable {e : DiskError} (read : kit.disk path = .error e) : KeyFault path (.unreadable e)
  | malformed {bytes : List UInt8} {e : Pem.Error} (read : kit.disk path = .ok bytes)
      (sections : kit.firstKey bytes = .error e) : KeyFault path (.malformed e)
  | none {bytes : List UInt8} (read : kit.disk path = .ok bytes)
      (sections : kit.firstKey bytes = .ok none) : KeyFault path .noKey

/-- The certificates a file gives. -/
def Gives (path : String) (certificates : List (List UInt8)) : Prop :=
  ∃ bytes, kit.disk path = .ok bytes ∧ kit.certificates bytes = .ok certificates ∧
    certificates ≠ []

/-- The private key a file gives. -/
def GivesKey (path : String) (key : Pem.Item) : Prop :=
  ∃ bytes, kit.disk path = .ok bytes ∧ kit.firstKey bytes = .ok (some key)

/-- The first of some certificates that cannot be trusted has a fault. -/
def FirstRefused (certificates : List (List UInt8)) (fault : MaterialFault) : Prop :=
  ∃ before certificate after, certificates = before ++ certificate :: after ∧
    (∀ c ∈ before, kit.rootFault c = none) ∧ kit.rootFault certificate = some fault

/-! ### The stages of a file, a name and a certificate -/

/-- A file is read, which has a fault in some cases. -/
def fileStage (role : FileRole) (path : String) (Fault : FileFault → Prop) : Stage where
  file := some path
  Fails e := ∃ fault, Fault fault ∧ e = .badFile role path fault

/-- The certificates of a file are read. -/
def certificateStage (path : String) : Stage :=
  fileStage .certificates path (kit.CertificateFault path)

/-- The private key of a file is read. -/
def keyStage (path : String) : Stage :=
  fileStage .privateKey path (kit.KeyFault path)

/-- A certificate and a key have to be given together. -/
def pairStage (certPath keyPath : Option String) : Stage where
  file := none
  Fails e := certPath.isSome ≠ keyPath.isSome ∧ e = .incompleteIdentity

/-- The name of the server has to be sound. -/
def nameStage (serverName : Option String) : Stage where
  file := none
  Fails e := ∃ name, serverName = some name ∧ kit.isServerName name = false ∧
    e = .invalidServerName name

/-- The certificates of a file are trusted one by one. -/
def rootsStage (path : String) : Stage where
  file := none
  Fails e := ∃ certificates fault, kit.Gives path certificates ∧
    kit.FirstRefused certificates fault ∧ e = .badMaterial fault

/-- The key has to belong to the certificates. -/
def identityStage (certPath keyPath : Option String) : Stage where
  file := none
  Fails e := ∃ cert key identity fault, certPath = some cert ∧ keyPath = some key ∧
    kit.Gives cert identity.certificates ∧ kit.GivesKey key identity.key ∧
    kit.identityFault identity = some fault ∧ e = .badMaterial fault

/-! ### What the parts of a resolution come to -/

variable {kit} {certificates certificates' : List (List UInt8)} {key key' : Pem.Item}
  {fault : FileFault} {certPath keyPath caPath serverName : Option String} {skipVerify : Bool}

theorem Gives.unique (h : kit.Gives path certificates) (h' : kit.Gives path certificates') :
    certificates = certificates' := by
  obtain ⟨bytes, hread, hsections, -⟩ := h
  obtain ⟨bytes', hread', hsections', -⟩ := h'
  cases hread.symm.trans hread'
  cases hsections.symm.trans hsections'
  rfl

theorem GivesKey.unique (h : kit.GivesKey path key) (h' : kit.GivesKey path key') : key = key' := by
  obtain ⟨bytes, hread, hsections⟩ := h
  obtain ⟨bytes', hread', hsections'⟩ := h'
  cases hread.symm.trans hread'
  cases hsections.symm.trans hsections'
  rfl

theorem CertificateFault.not_gives (h : kit.CertificateFault path fault) :
    ¬ kit.Gives path certificates := by
  rintro ⟨bytes, hread, hsections, hne⟩
  cases h with
  | unreadable read => cases read.symm.trans hread
  | malformed read sections =>
    cases read.symm.trans hread
    cases sections.symm.trans hsections
  | none read sections =>
    cases read.symm.trans hread
    cases sections.symm.trans hsections
    exact hne rfl

theorem KeyFault.not_gives (h : kit.KeyFault path fault) : ¬ kit.GivesKey path key := by
  rintro ⟨bytes, hread, hsections⟩
  cases h with
  | unreadable read => cases read.symm.trans hread
  | malformed read sections =>
    cases read.symm.trans hread
    cases sections.symm.trans hsections
  | none read sections =>
    cases read.symm.trans hread
    cases sections.symm.trans hsections

theorem read_bind {α : Type} (kit : Toolkit) (role : FileRole) (path : String)
    (k : List UInt8 → Resolution α) :
    (kit.read role path).bind k =
      match kit.disk path with
      | .error e => ⟨.error (.badFile role path (.unreadable e)), [.opened path]⟩
      | .ok bytes => ⟨(k bytes).outcome, .opened path :: (k bytes).notices⟩ := by
  simp only [read, Resolution.bind_eq, Resolution.bind, Resolution.notice]
  cases kit.disk path <;> rfl

/-- The file is opened, and is at fault or gives its certificates. -/
theorem loadCertificates_cases (kit : Toolkit) (path : String) :
    (∃ fault, kit.CertificateFault path fault ∧ kit.loadCertificates path =
      ⟨.error (.badFile .certificates path fault), [.opened path]⟩) ∨
    ∃ certificates, kit.Gives path certificates ∧
      kit.loadCertificates path = ⟨.ok certificates, [.opened path]⟩ := by
  rw [loadCertificates, Resolution.bind_eq, read_bind]
  cases hread : kit.disk path with
  | error e => exact Or.inl ⟨_, .unreadable hread, rfl⟩
  | ok bytes =>
    dsimp only
    cases hsections : kit.certificates bytes with
    | error e => exact Or.inl ⟨_, .malformed hread hsections, rfl⟩
    | ok certificates =>
      cases certificates with
      | nil => exact Or.inl ⟨_, .none hread hsections, rfl⟩
      | cons c cs => exact Or.inr ⟨_, ⟨bytes, hread, hsections, List.cons_ne_nil c cs⟩, rfl⟩

/-- The file is opened, and is at fault or gives its first key. -/
theorem loadKey_cases (kit : Toolkit) (path : String) :
    (∃ fault, kit.KeyFault path fault ∧ kit.loadKey path =
      ⟨.error (.badFile .privateKey path fault), [.opened path]⟩) ∨
    ∃ key, kit.GivesKey path key ∧ kit.loadKey path = ⟨.ok key, [.opened path]⟩ := by
  rw [loadKey, Resolution.bind_eq, read_bind]
  cases hread : kit.disk path with
  | error e => exact Or.inl ⟨_, .unreadable hread, rfl⟩
  | ok bytes =>
    dsimp only
    cases hsections : kit.firstKey bytes with
    | error e => exact Or.inl ⟨_, .malformed hread hsections, rfl⟩
    | ok key =>
      cases key with
      | none => exact Or.inl ⟨_, .none hread hsections, rfl⟩
      | some key => exact Or.inr ⟨_, ⟨bytes, hread, hsections⟩, rfl⟩

/-- A file that is at fault or gives something, and not both, is a stage. -/
theorem file_through {α : Type} {r : Resolution α} {role : FileRole} {Fault : FileFault → Prop}
    {Gives : α → Prop} (hnot : ∀ fault a, Fault fault → ¬ Gives a)
    (hcases : (∃ fault, Fault fault ∧ r = ⟨.error (.badFile role path fault), [.opened path]⟩) ∨
      ∃ a, Gives a ∧ r = ⟨.ok a, [.opened path]⟩) : r.Through [fileStage role path Fault] := by
  rcases hcases with ⟨fault, hfault, rfl⟩ | ⟨a, hgives, rfl⟩
  · exact Resolution.through_stage rfl (Or.inl ⟨_, rfl, fault, hfault, rfl⟩)
  · refine Resolution.through_stage rfl (Or.inr ⟨a, rfl, ?_⟩)
    rintro e ⟨fault, hfault, -⟩
    exact hnot fault a hfault hgives

theorem loadCertificates_through (kit : Toolkit) (path : String) :
    (kit.loadCertificates path).Through [kit.certificateStage path] :=
  file_through (fun _ _ hfault => hfault.not_gives) (kit.loadCertificates_cases path)

theorem loadKey_through (kit : Toolkit) (path : String) :
    (kit.loadKey path).Through [kit.keyStage path] :=
  file_through (fun _ _ hfault => hfault.not_gives) (kit.loadKey_cases path)

theorem outcome_loadCertificates (h : (kit.loadCertificates path).outcome = .ok certificates) :
    kit.Gives path certificates := by
  rcases kit.loadCertificates_cases path with ⟨fault, -, hload⟩ | ⟨given, hgives, hload⟩
  · rw [hload] at h
    cases h
  · rw [hload] at h
    cases h
    exact hgives

theorem outcome_loadKey (h : (kit.loadKey path).outcome = .ok key) : kit.GivesKey path key := by
  rcases kit.loadKey_cases path with ⟨fault, -, hload⟩ | ⟨given, hgives, hload⟩
  · rw [hload] at h
    cases h
  · rw [hload] at h
    cases h
    exact hgives

/-- What the certificates and the key that are shown have to do with the files. -/
inductive Shows (kit : Toolkit) : Option String → Option String → Option Identity → Prop
  | nothing : Shows kit none none none
  | identity {cert key : String} {i : Identity} (certificates : kit.Gives cert i.certificates)
      (pair : kit.GivesKey key i.key) : Shows kit (some cert) (some key) (some i)

/-- The stages of the certificates and the key that are shown. -/
def identityStages (kit : Toolkit) (certPath keyPath : Option String) : List Stage :=
  match certPath, keyPath with
  | some cert, some key => [kit.certificateStage cert, kit.keyStage key]
  | _, _ => []

theorem loadIdentity_through (kit : Toolkit) (certPath keyPath : Option String) :
    (kit.loadIdentity certPath keyPath).Through
      (pairStage certPath keyPath :: kit.identityStages certPath keyPath) := by
  have hpair : ∀ {α : Type} {r : Resolution α} {stages}, r.Through stages →
      certPath.isSome = keyPath.isSome → r.Through (pairStage certPath keyPath :: stages) :=
    fun h hsome => .passed (fun e hfails => hfails.1 hsome) h
  cases certPath with
  | none =>
    cases keyPath with
    | none => exact hpair (.nil) rfl
    | some key => exact Resolution.through_stage rfl (Or.inl ⟨_, rfl, Bool.false_ne_true, rfl⟩)
  | some cert =>
    cases keyPath with
    | none => exact Resolution.through_stage rfl (Or.inl ⟨_, rfl, Bool.false_ne_true.symm, rfl⟩)
    | some key =>
      refine hpair ?_ rfl
      exact (kit.loadCertificates_through cert).bind fun certificates _ =>
        (kit.loadKey_through key).bind_ok fun item => some (Identity.mk certificates item)

theorem outcome_loadIdentity {identity : Option Identity}
    (h : (kit.loadIdentity certPath keyPath).outcome = .ok identity) :
    kit.Shows certPath keyPath identity := by
  cases certPath with
  | none =>
    cases keyPath with
    | none =>
      cases h
      exact .nothing
    | some key => cases h
  | some cert =>
    cases keyPath with
    | none => cases h
    | some key =>
      obtain ⟨certificates, hcertificates, hrest⟩ := Resolution.outcome_bind_eq_ok.mp h
      obtain ⟨item, hkey, hlast⟩ := Resolution.outcome_bind_eq_ok.mp hrest
      cases hlast
      exact .identity (outcome_loadCertificates hcertificates) (outcome_loadKey hkey)

theorem checkServerName_through (kit : Toolkit) (serverName : Option String) :
    (kit.checkServerName serverName).Through [kit.nameStage serverName] := by
  unfold checkServerName
  cases serverName with
  | none =>
    have hpasses : ∀ e, ¬ (kit.nameStage none).Fails e := fun e ⟨_, hname, _⟩ => nomatch hname
    exact Resolution.through_stage rfl (Or.inr ⟨_, rfl, hpasses⟩)
  | some name =>
    dsimp only
    cases hsound : kit.isServerName name with
    | false => exact Resolution.through_stage rfl (Or.inl ⟨_, rfl, name, rfl, hsound, rfl⟩)
    | true =>
      refine Resolution.through_stage rfl (Or.inr ⟨_, rfl, ?_⟩)
      rintro e ⟨name', hname, hbad, -⟩
      cases hname
      exact absurd (hsound.symm.trans hbad) (by decide)

theorem refuse_through {fault? : Option MaterialFault} {s : Stage} (hfile : s.file = none)
    (hfails : ∀ e, s.Fails e ↔ ∃ fault, fault? = some fault ∧ e = .badMaterial fault) :
    (refuse fault?).Through [s] := by
  cases fault? with
  | none =>
    refine Resolution.through_stage (by rw [hfile]; rfl) (Or.inr ⟨(), rfl, fun e he => ?_⟩)
    obtain ⟨fault, hfault, -⟩ := (hfails e).mp he
    cases hfault
  | some fault =>
    exact Resolution.through_stage (by rw [hfile]; rfl)
      (Or.inl ⟨_, rfl, (hfails _).mpr ⟨fault, rfl, rfl⟩⟩)

theorem firstRefused_iff {fault : MaterialFault} :
    kit.FirstRefused certificates fault ↔ certificates.findSome? kit.rootFault = some fault := by
  rw [List.findSome?_eq_some_iff]
  constructor
  · rintro ⟨before, c, after, hsplit, hbefore, hfault⟩
    exact ⟨before, c, after, hsplit, hfault, hbefore⟩
  · rintro ⟨before, c, after, hsplit, hfault, hbefore⟩
    exact ⟨before, c, after, hsplit, hbefore, hfault⟩

/-- The stages of the certificates that are trusted. -/
def trustStages (kit : Toolkit) (skipVerify : Bool) (caPath : Option String) : List Stage :=
  match skipVerify, caPath with
  | false, some path => [kit.certificateStage path, kit.rootsStage path]
  | _, _ => []

/-- What the judgement of a server has to do with the files. -/
inductive Trusts (kit : Toolkit) : Bool → Option String → Trust → Prop
  | anyone (caPath : Option String) : Trusts kit true caPath .anyone
  | platform : Trusts kit false none .platform
  | roots {path : String} {certificates : List (List UInt8)} (given : kit.Gives path certificates)
      (sound : ∀ c ∈ certificates, kit.rootFault c = none) :
      Trusts kit false (some path) (.roots certificates)

theorem loadTrust_through (kit : Toolkit) (skipVerify : Bool) (caPath : Option String) :
    (kit.loadTrust skipVerify caPath).Through (kit.trustStages skipVerify caPath) := by
  cases skipVerify with
  | true => exact .nil
  | false =>
    cases caPath with
    | none => exact .nil
    | some path =>
      refine (kit.loadCertificates_through path).bind fun certificates hload => ?_
      have hgives := outcome_loadCertificates hload
      refine Resolution.Through.bind_ok (refuse_through rfl fun e => ⟨?_, ?_⟩) fun _ => _
      · rintro ⟨given, fault, hgiven, hrefused, rfl⟩
        cases hgiven.unique hgives
        exact ⟨fault, firstRefused_iff.mp hrefused, rfl⟩
      · rintro ⟨fault, hfault, rfl⟩
        exact ⟨certificates, fault, hgives, firstRefused_iff.mpr hfault, rfl⟩

theorem outcome_loadTrust {trust : Trust}
    (h : (kit.loadTrust skipVerify caPath).outcome = .ok trust) :
    kit.Trusts skipVerify caPath trust := by
  cases skipVerify with
  | true =>
    cases h
    exact .anyone caPath
  | false =>
    cases caPath with
    | none =>
      cases h
      exact .platform
    | some path =>
      obtain ⟨certificates, hload, hrest⟩ := Resolution.outcome_bind_eq_ok.mp h
      obtain ⟨_, hrefuse, hlast⟩ := Resolution.outcome_bind_eq_ok.mp hrest
      cases hlast
      refine .roots (outcome_loadCertificates hload) ?_
      cases hfault : certificates.findSome? kit.rootFault with
      | none => simpa using hfault
      | some fault =>
        rw [hfault] at hrefuse
        cases hrefuse

/-- A key is judged with the certificates it came with. -/
theorem identity_through {identity : Option Identity} (h : kit.Shows certPath keyPath identity) :
    (refuse (identity.bind kit.identityFault)).Through [kit.identityStage certPath keyPath] := by
  refine refuse_through rfl fun e => ?_
  cases h with
  | nothing =>
    constructor
    · rintro ⟨cert, key, i, fault, hcert, -⟩
      cases hcert
    · rintro ⟨fault, hfault, -⟩
      cases hfault
  | @identity cert key i hcertificates hkey =>
    constructor
    · rintro ⟨_, _, ⟨certificates, item⟩, fault, ⟨⟩, ⟨⟩, hcertificates', hkey', hfault, rfl⟩
      cases hcertificates'.unique hcertificates
      cases hkey'.unique hkey
      exact ⟨fault, hfault, rfl⟩
    · rintro ⟨fault, hfault, rfl⟩
      exact ⟨cert, key, i, fault, rfl, rfl, hcertificates, hkey, hfault, rfl⟩

/-! ### What does not matter -/

/-- The same judgement of other files. -/
def onDisk (kit : Toolkit) (disk : Disk) : Toolkit := { kit with disk }

/-- What a resolution comes to depends on no other files than those it opens. -/
def Confined {α : Type} (f : Toolkit → Resolution α) : Prop :=
  ∀ (kit : Toolkit) (disk : Disk), (∀ path ∈ (f kit).files, disk path = kit.disk path) →
    f (kit.onDisk disk) = f kit

namespace Confined

variable {α β : Type} {f : Toolkit → Resolution α}

theorem bind {k : α → Toolkit → Resolution β} (h : Confined f) (hk : ∀ a, Confined (k a)) :
    Confined fun kit => (f kit).bind fun a => k a kit := by
  intro kit disk hdisk
  dsimp only at hdisk ⊢
  cases hf : (f kit).outcome with
  | error e =>
    rw [Resolution.bind_of_error hf] at hdisk ⊢
    rw [h kit disk hdisk, Resolution.bind_of_error hf]
  | ok a =>
    rw [Resolution.files_bind_of_ok hf] at hdisk
    have hfirst := h kit disk fun path hpath => hdisk path (List.mem_append_left _ hpath)
    have hrest := hk a kit disk fun path hpath => hdisk path (List.mem_append_right _ hpath)
    rw [hfirst, Resolution.bind_of_ok hf, Resolution.bind_of_ok hf, hrest]

theorem read (role : FileRole) (path : String) : Confined fun kit => kit.read role path := by
  intro kit disk hdisk
  have hfiles : path ∈ (kit.read role path).files := by
    unfold Toolkit.read
    cases kit.disk path <;> exact List.mem_singleton_self path
  have hpath : (kit.onDisk disk).disk path = kit.disk path := hdisk path hfiles
  simp only [Toolkit.read, hpath]

theorem loadIdentity (certPath keyPath : Option String) :
    Confined fun kit => kit.loadIdentity certPath keyPath := by
  cases certPath with
  | none => cases keyPath <;> exact fun _ _ _ => rfl
  | some cert =>
    cases keyPath with
    | none => exact fun _ _ _ => rfl
    | some key =>
      refine bind ((read .certificates cert).bind fun bytes _ _ _ => rfl) fun certificates => ?_
      exact bind ((read .privateKey key).bind fun bytes _ _ _ => rfl) fun item _ _ _ => rfl

theorem loadTrust (skipVerify : Bool) (caPath : Option String) :
    Confined fun kit => kit.loadTrust skipVerify caPath := by
  cases skipVerify with
  | true => exact fun _ _ _ => rfl
  | false =>
    cases caPath with
    | none => exact fun _ _ _ => rfl
    | some path =>
      refine bind ((read .certificates path).bind fun bytes _ _ _ => rfl) fun certificates => ?_
      exact fun _ _ _ => rfl

end Confined

end Toolkit

namespace TlsMaterial

variable {kit : Toolkit} {t : TlsMaterial}

/-- The stages of enabled material, in order. -/
def stages (t : TlsMaterial) (kit : Toolkit) : List Stage :=
  Toolkit.pairStage t.certPath t.keyPath :: kit.identityStages t.certPath t.keyPath ++
    ([kit.nameStage t.serverName] ++
      (kit.trustStages t.skipVerify t.caPath ++ [kit.identityStage t.certPath t.keyPath]))

/-- The settings are those of the material and hold what its files do. -/
structure Resolved (t : TlsMaterial) (kit : Toolkit) (config : TlsConfig) : Prop where
  identity : kit.Shows t.certPath t.keyPath config.identity
  trust : kit.Trusts t.skipVerify t.caPath config.trust
  versions : config.versions =
    if t.minVersion = some .tls13 then [.tls13] else [.tls12, .tls13]
  protocols : config.protocols = ["h2"]

theorem config_through (t : TlsMaterial) (kit : Toolkit) :
    (t.config kit).Through (t.stages kit) := by
  refine (kit.loadIdentity_through t.certPath t.keyPath).bind fun identity hidentity => ?_
  refine (kit.checkServerName_through t.serverName).bind fun _ _ => ?_
  refine (kit.loadTrust_through t.skipVerify t.caPath).bind fun trust _ => ?_
  exact (Toolkit.identity_through (Toolkit.outcome_loadIdentity hidentity)).bind_ok fun _ => _

theorem outcome_config {config : TlsConfig} (h : (t.config kit).outcome = .ok config) :
    t.Resolved kit config := by
  obtain ⟨identity, hidentity, h⟩ := Resolution.outcome_bind_eq_ok.mp h
  obtain ⟨_, -, h⟩ := Resolution.outcome_bind_eq_ok.mp h
  obtain ⟨trust, htrust, h⟩ := Resolution.outcome_bind_eq_ok.mp h
  obtain ⟨_, -, h⟩ := Resolution.outcome_bind_eq_ok.mp h
  cases h
  refine ⟨Toolkit.outcome_loadIdentity hidentity, Toolkit.outcome_loadTrust htrust, ?_, rfl⟩
  dsimp only [versions]
  split <;> simp_all

theorem config_confined (t : TlsMaterial) : Toolkit.Confined t.config :=
  (Toolkit.Confined.loadIdentity t.certPath t.keyPath).bind fun _ =>
    Toolkit.Confined.bind (fun _ _ _ => rfl) fun _ =>
      (Toolkit.Confined.loadTrust t.skipVerify t.caPath).bind fun _ _ _ _ => rfl

/-! ### Enabled material -/

theorem transportSecurity_enabled (t : TlsMaterial) (kit : Toolkit) :
    t.transportSecurity kit true =
      (t.config kit).bind fun config => .ok (.tls config t.serverName) := rfl

theorem transportSecurity_through (t : TlsMaterial) (kit : Toolkit) :
    (t.transportSecurity kit true).Through (t.stages kit) :=
  (t.config_through kit).bind_ok fun config => TransportSecurity.tls config t.serverName

theorem transportSecurity_confined (t : TlsMaterial) :
    Toolkit.Confined fun kit => t.transportSecurity kit true :=
  Toolkit.Confined.bind (k := fun config _ => .ok (TransportSecurity.tls config t.serverName))
    t.config_confined fun _ _ _ _ => rfl

/-- Where nothing is verified only the files of certificate and key are opened. -/
theorem mem_files_of_skip (h : t.skipVerify = true) {path : String}
    (hpath : path ∈ (t.transportSecurity kit true).files) :
    t.certPath = some path ∨ t.keyPath = some path := by
  obtain ⟨s, hs, hfile⟩ := (t.transportSecurity_through kit).mem_files hpath
  have htrust : kit.trustStages t.skipVerify t.caPath = [] := by rw [h]; rfl
  simp only [stages, htrust, List.cons_append, List.mem_cons, List.mem_append, List.nil_append,
    List.not_mem_nil, or_false] at hs
  rcases hs with rfl | hs | rfl | rfl
  · cases hfile
  · unfold Toolkit.identityStages at hs
    split at hs
    · rename_i cert key hcert hkey
      rcases List.mem_cons.mp hs with rfl | hs
      · exact Or.inl (hcert.trans hfile)
      · cases List.mem_singleton.mp hs
        exact Or.inr (hkey.trans hfile)
    · cases hs
  · cases hfile
  · cases hfile

/-- Enabled material goes through its stages in order: the first that fails decides the failure and
which files are opened, and if there is none the settings and the files decide the rest. -/
theorem resolves_in_order (t : TlsMaterial) (kit : Toolkit) :
    t.transportSecurity kit false = .ok .insecure ∧
    let r := t.transportSecurity kit true
    Resolution.Passes (t.stages kit) r.files r.failure? ∧
    (∀ security, r.outcome = .ok security →
      ∃ config, security = .tls config t.serverName ∧ t.Resolved kit config) ∧
    (∀ disk : Disk, (∀ path ∈ r.files, disk path = kit.disk path) →
      t.transportSecurity (kit.onDisk disk) true = r) ∧
    (t.skipVerify = true →
      (∀ path ∈ r.files, t.certPath = some path ∨ t.keyPath = some path) ∧
      ∀ caPath, { t with caPath }.transportSecurity kit true = r) := by
  refine ⟨rfl, t.transportSecurity_through kit, ?success, ?confined,
    fun hskip => ⟨?files, ?trusted⟩⟩
  case success =>
    intro security h
    obtain ⟨config, hconfig, hlast⟩ := Resolution.outcome_bind_eq_ok.mp h
    cases hlast
    exact ⟨config, rfl, outcome_config hconfig⟩
  case confined => exact t.transportSecurity_confined kit
  case files => exact fun path hpath => mem_files_of_skip hskip hpath
  case trusted =>
    intro caPath
    simp only [transportSecurity_enabled, config, Toolkit.loadTrust, hskip, if_true]
    rfl

/-- A certificate without a key; a file to trust that is missing; and the same where nothing is
verified, on a disk that has the file but nothing to trust in it. -/
theorem resolves_in_order_thrice :
    let alone : TlsMaterial := { TlsMaterial.empty with certPath := some "cert.pem" }
    let trusting : TlsMaterial := { TlsMaterial.empty with caPath := some "ca.pem" }
    let careless : TlsMaterial := { trusting with skipVerify := true }
    let kit := Toolkit.ofDisk fun _ => .error .notFound
    Resolution.Passes (alone.stages kit) [] (some .incompleteIdentity) ∧
    Resolution.Passes (trusting.stages kit) ["ca.pem"]
      (some (.badFile .certificates "ca.pem" (.unreadable .notFound))) ∧
    (∃ config, careless.transportSecurity kit true = ⟨.ok (.tls config none), [.unverified]⟩ ∧
      careless.Resolved kit config) ∧
    careless.transportSecurity (kit.onDisk fun _ => .ok []) true =
      careless.transportSecurity kit true ∧
    { careless with caPath := none }.transportSecurity kit true =
      careless.transportSecurity kit true := by
  intro alone trusting careless kit
  obtain ⟨-, halone, -⟩ := resolves_in_order alone kit
  obtain ⟨-, htrusting, -⟩ := resolves_in_order trusting kit
  obtain ⟨-, -, hsuccess, hconfined, hskip⟩ := resolves_in_order careless kit
  obtain ⟨config, hconfig⟩ : ∃ config, careless.transportSecurity kit true =
      ⟨.ok (.tls config none), [.unverified]⟩ := ⟨_, rfl⟩
  have hnone : (careless.transportSecurity kit true).files = [] := by rw [hconfig]; rfl
  refine ⟨halone, htrusting, ⟨config, hconfig, ?_⟩, hconfined _ ?_, (hskip rfl).2 none⟩
  · obtain ⟨config', heq, hresolved⟩ := hsuccess (.tls config none) (by rw [hconfig])
    cases heq
    exact hresolved
  · rw [hnone]
    exact fun path hpath => nomatch hpath

end TlsMaterial

end RpcPolicy

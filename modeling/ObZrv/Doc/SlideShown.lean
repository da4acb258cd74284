import ObZrv.Doc.Displayed
import ObZrv.Doc.SlideRounds

/-!
# Doc.SlideShown

Which file a slide show puts on screen. The call of `Doc::open` it makes asks for the fallback, so
where the listed file cannot be opened another file of its directory may be shown in its place.

* `Sys.Substitutes`          : the fallback finds another file that can be shown.
* `openSlideShowCurrent_shows_listed` : a file opened is the one listed, exactly when no file is
  substituted, and over a run without substitutions only listed files are shown.
-/

namespace ObZrv

namespace Sys

variable {W F I : Type}

/-- What the file system answers when another file is shown in place of `path`: `path` cannot be
opened, its directory can be listed, and the file the fallback picks there is another one that can
be opened and decoded. -/
def Substitutes (env : Env W F I) (fs : UniFs) (path : Str) (dirHint : Int) (w : W) : Prop :=
  ∃ retried w₁, attempt env fs false (env.openfile fs path) w = (.got none retried, w₁) ∧
    dirHint ≠ INT_MIN ∧
    ∃ l retried' w₂, attempt env fs retried (updateDir env fs path) w₁ = (.got (some l) retried', w₂) ∧
      l.files ≠ [] ∧
      let picked := joinPath l.dir (l.files.getD (pickFile env l.files (fileNameOf path) dirHint) [])
      picked ≠ path ∧
        ∃ uf retried'' w₃,
          attempt env fs retried' (env.openfile fs picked) w₂ = (.got (some uf) retried'', w₃) ∧
          ∃ img, (decode env uf picked w₃).1 = .image img

variable {env : Env W F I} {s : Sys W I}

/-- Step 1 of `open` ends with a picked file just when the file asked for cannot be opened and the
pick can. -/
theorem acquire_opened_iff {fs : UniFs} {path : Str} {dirHint : Int} {w w' : W} {uf : F}
    {l' : Listing} {r : Bool} :
    acquire env fs path dirHint w = (.opened uf (some l') r, w') ↔
      ∃ retried w₁, attempt env fs false (env.openfile fs path) w = (.got none retried, w₁) ∧
        dirHint ≠ INT_MIN ∧
        ∃ l retried' w₂, attempt env fs retried (updateDir env fs path) w₁ =
            (.got (some l) retried', w₂) ∧
          l.files ≠ [] ∧ l' = { l with idx := pickFile env l.files (fileNameOf path) dirHint } ∧
          attempt env fs retried' (env.openfile fs l'.path) w₂ = (.got (some uf) r, w') := by
  unfold acquire
  constructor
  · intro h
    split at h
    · cases h
    · cases h
    · rename_i retried w₁ hfirst
      refine ⟨retried, w₁, hfirst, ?_⟩
      split at h
      · cases h
      · rename_i hhint
        refine ⟨hhint, ?_⟩
        split at h
        · cases h
        · cases h
        · rename_i l retried' w₂ hdir
          refine ⟨l, retried', w₂, hdir, ?_⟩
          split at h
          · cases h
          · rename_i hfiles
            refine ⟨hfiles, ?_⟩
            simp only at h
            split at h
            · cases h
            · cases h
            · rename_i hopen
              cases h
              exact ⟨rfl, hopen⟩
  · rintro ⟨retried, w₁, hfirst, hhint, l, retried', w₂, hdir, hfiles, rfl, hopen⟩
    rw [hfirst]
    simp only [hhint, if_false, hdir, hfiles, hopen]

theorem substitutes_iff {fs : UniFs} {path : Str} {dirHint : Int} {w : W} :
    Substitutes env fs path dirHint w ↔
      ∃ uf l r w', acquire env fs path dirHint w = (.opened uf (some l) r, w') ∧ l.path ≠ path ∧
        ∃ img, (decode env uf l.path w').1 = .image img := by
  constructor
  · rintro ⟨retried, w₁, hfirst, hhint, l, retried', w₂, hdir, hfiles, hne, uf, r, w₃, hopen, img, hdec⟩
    refine ⟨uf, { l with idx := pickFile env l.files (fileNameOf path) dirHint }, r, w₃, ?_, hne, img, hdec⟩
    exact acquire_opened_iff.mpr
      ⟨retried, w₁, hfirst, hhint, l, retried', w₂, hdir, hfiles, rfl, hopen⟩
  · rintro ⟨uf, l', r, w', hacq, hne, img, hdec⟩
    obtain ⟨retried, w₁, hfirst, hhint, l, retried', w₂, hdir, hfiles, rfl, hopen⟩ :=
      acquire_opened_iff.mp hacq
    exact ⟨retried, w₁, hfirst, hhint, l, retried', w₂, hdir, hfiles, hne, uf, r, w', hopen, img, hdec⟩

/-- A call that does not scan the directory again keeps what is on screen in step 3. -/
theorem rescan_kept (env : Env W F I) (s : Sys W I) (before : Doc I) (fs : UniFs)
    (path target : Str) (scanned retried : Bool) :
    let r := s.rescan env before fs path target scanned retried false
    r.1 = .OK ∧ r.2.doc.path = s.doc.path ∧ r.2.doc.image = s.doc.image := by
  intro r
  have hr : r = ({ s with doc := s.doc.findTarget target } : Sys W I).finish env before scanned target := by
    simp only [r, rescan, Bool.false_eq_true, false_and, if_false]
  rw [hr]
  refine ⟨rfl, ?_, ?_⟩
  · simp only [finish, Doc.rotate, Doc.findTarget]
    split
    · rfl
    · rfl
  · simp only [finish, Doc.rotate, Doc.findTarget]
    split
    · rfl
    · rfl

/-- Steps 2 and 3 on a file that decodes, without a scan. -/
theorem load_kept {c : OpenCall} (fs : UniFs) {uf : F} {picked : Option Listing} (retried : Bool)
    {img : I} (hforce : c.forceScanDir = false)
    (hdec : (decode env uf ((picked.map Listing.path).getD c.path) s.world).1 = .image img) :
    let r := s.load env c fs uf picked retried
    r.1 = .OK ∧ r.2.doc.path = (picked.map Listing.path).getD c.path ∧
      r.2.doc.image = some ⟨img, fs, (picked.map Listing.path).getD c.path⟩ := by
  intro r
  obtain ⟨s', hshown, -, -, hload⟩ := load_decoded c fs picked retried hdec
  obtain ⟨-, hpath, himage⟩ := rescan_kept env s' s.doc fs c.path
    ((picked.map Listing.name).getD (fileNameOf c.path)) picked.isSome retried
  rw [hforce] at hload
  have himg := himage.trans hshown.image
  rw [← hload] at hpath himg
  refine ⟨?_, hpath.trans hshown.path, himg⟩
  -- the only failures with a decoded image clear the document
  by_contra hne
  have hnone := (load_decoded_failed hdec hne).image
  rw [himg] at hnone
  cases hnone

/-- What a call without a scan puts on screen, or leaves there. -/
theorem open_shows (env : Env W F I) (s : Sys W I) {c : OpenCall} (hforce : c.forceScanDir = false) :
    ((s.open env c).1 = .OK ∧
        ∃ fs uf picked r w img, s.fsOf c = some fs ∧
          acquire env fs c.path c.dirHint s.world = (.opened uf picked r, w) ∧
          (decode env uf ((picked.map Listing.path).getD c.path) w).1 = .image img ∧
          (s.open env c).2.doc.path = (picked.map Listing.path).getD c.path ∧
          (s.open env c).2.doc.image = some ⟨img, fs, (picked.map Listing.path).getD c.path⟩) ∨
      ((s.open env c).1 ≠ .OK ∧
        ((s.open env c).2.doc.image = none ∨
          (s.open env c).2.doc.image = s.doc.image ∧ (s.open env c).2.doc.path = s.doc.path)) := by
  have hfail : IM.FAIL ≠ .OK := by decide
  have hread : IM.READFILE_ERR ≠ .OK := by decide
  cases hfs : s.fsOf c with
  | none =>
    right
    simp only [«open», hfs]
    exact ⟨hread, .inr ⟨trivial, trivial⟩⟩
  | some fs =>
    simp only [«open», hfs]
    generalize hacq : acquire env fs c.path c.dirHint s.world = r
    obtain ⟨got, w⟩ := r
    cases got with
    | refused => exact .inr ⟨hread, .inr ⟨rfl, rfl⟩⟩
    | lost => exact .inr ⟨hfail, .inl rfl⟩
    | noDir => exact .inr ⟨hfail, .inl rfl⟩
    | noFiles => exact .inr ⟨hfail, .inl rfl⟩
    | gaveUp l => exact .inr ⟨hfail, .inr ⟨rfl, rfl⟩⟩
    | opened uf picked retried =>
      simp only
      cases hdec : (decode env uf ((picked.map Listing.path).getD c.path) w).1 with
      | error res ne =>
        right
        obtain ⟨hres, hdoc⟩ := load_undecoded (s.setWorld w) c fs picked retried hdec
        rw [hres, hdoc]
        exact ⟨ne, .inl rfl⟩
      | image img =>
        left
        obtain ⟨hok, hpath, himage⟩ := load_kept (s := s.setWorld w) fs retried hforce hdec
        exact ⟨hok, fs, uf, picked, retried, w, img, rfl, hacq, hdec, hpath, himage⟩

end Sys

namespace MainWnd

variable {W F I : Type}

/-- The file at the index. -/
def listedFile (m : MainWnd W I) : Str := m.slideShow.files.getD m.slideShow.index.toNat []

/-- The call of `open` that `OpenSlideShowCurrent` makes. -/
def currentCall (env : SlideEnv W F I) (m : MainWnd W I) : OpenCall :=
  Sys.slideShowCall (m.slideShowFs env).1 m.listedFile

/-- Another file is shown in place of the one at the index. -/
def Substituted (env : SlideEnv W F I) (m : MainWnd W I) : Prop :=
  InRange m ∧ ∃ fs, m.sys.fsOf (m.currentCall env) = some fs ∧
    Sys.Substitutes env.toEnv fs m.listedFile 1 (m.slideShowFs env).2

/-- The states in which a loop of attempts calls `OpenSlideShowCurrent`. -/
def attemptStates (env : SlideEnv W F I) : Nat → MainWnd W I → List (MainWnd W I)
  | 0, _ => []
  | attempts + 1, m =>
    match m.stepSlideShowIndex env with
    | (false, _) => []
    | (true, m) =>
      m ::
        match m.openSlideShowCurrent env with
        | (true, _) => []
        | (false, m) => attemptStates env attempts m

/-- The states in which a tick calls it. -/
def tickStates (env : SlideEnv W F I) (m : MainWnd W I) : List (MainWnd W I) :=
  attemptStates env m.slideShow.files.length m

/-- The states in which the start of a show calls it. -/
def startStates (env : SlideEnv W F I) (m : MainWnd W I) (o : SlideShowOptions) :
    List (MainWnd W I) :=
  let m := m.prepareSlideShow env o
  m ::
    match m.openSlideShowCurrent env with
    | (true, _) => []
    | (false, m) => tickStates env m

/-- The list holds files of `listed` only, and so does the screen, or it is as it was. -/
structure ShowsOnly (listed : List Str) (m₀ m : MainWnd W I) : Prop where
  files : ∀ f ∈ m.slideShow.files, f ∈ listed
  shown : ∀ img, m.sys.doc.image = some img →
    m₀.sys.doc.image = some img ∧ m.sys.doc.path = m₀.sys.doc.path ∨
      img.path = m.sys.doc.path ∧ m.sys.doc.path ∈ listed

variable {env : SlideEnv W F I} {m₀ m m' : MainWnd W I} {listed : List Str}

/-- What one call puts on screen. -/
theorem openSlideShowCurrent_shows (env : SlideEnv W F I) (h : InRange m) :
    ((m.openSlideShowCurrent env).1 = true ∧
        (∃ img, (m.openSlideShowCurrent env).2.sys.doc.image = some img ∧
          img.path = (m.openSlideShowCurrent env).2.sys.doc.path) ∧
        ((m.openSlideShowCurrent env).2.sys.doc.path ≠ m.listedFile ↔ Substituted env m)) ∨
      ((m.openSlideShowCurrent env).1 = false ∧ ¬ Substituted env m ∧
        ((m.openSlideShowCurrent env).2.sys.doc.image = none ∨
          (m.openSlideShowCurrent env).2.sys.doc.image = m.sys.doc.image ∧
            (m.openSlideShowCurrent env).2.sys.doc.path = m.sys.doc.path)) := by
  obtain ⟨custom, w, hfs, hopen⟩ := openSlideShowCurrent_inRange env h
  have hcall : m.currentCall env = Sys.slideShowCall custom m.listedFile := by
    rw [currentCall, ← hfs]
  have hw : (m.slideShowFs env).2 = w := by rw [← hfs]
  have hlisted : m.slideShow.files.getD m.slideShow.index.toNat [] = m.listedFile := rfl
  rw [hlisted] at hopen
  rw [hopen]
  simp only [Substituted, h, true_and, hcall, hw]
  generalize hc : Sys.slideShowCall custom m.listedFile = c
  have hforce : c.forceScanDir = false := by rw [← hc]; rfl
  have hpath : c.path = m.listedFile := by rw [← hc]; rfl
  have hhint : c.dirHint = 1 := by rw [← hc]; rfl
  rcases Sys.open_shows env.toEnv (m.sys.setWorld w) hforce with
    ⟨hok, fs, uf, picked, r, w', img, hfs', hacq, hdec, hp, himg⟩ | ⟨hne, hkept⟩
  · left
    refine ⟨decide_eq_true hok, ⟨_, himg, hp.symm⟩, ?_⟩
    rw [hp, ← hpath, ← hhint]
    constructor
    · intro hother
      cases picked with
      | none => exact absurd rfl hother
      | some l =>
        exact ⟨fs, hfs', Sys.substitutes_iff.mpr ⟨uf, l, r, w', hacq, hother, img, hdec⟩⟩
    · rintro ⟨fs', hfs'', hsub⟩
      obtain rfl : fs = fs' := Option.some.inj (hfs'.symm.trans hfs'')
      obtain ⟨uf', l, r', w'', hacq', hother, -⟩ := Sys.substitutes_iff.mp hsub
      cases hacq.symm.trans hacq'
      exact hother
  · right
    refine ⟨decide_eq_false hne, ?_, hkept⟩
    rintro ⟨fs, hfs', hsub⟩
    rw [← hpath, ← hhint] at hsub
    obtain ⟨uf, l, r, w', hacq, -, img, hdec⟩ := Sys.substitutes_iff.mp hsub
    have hfs'' : Sys.fsOf (m.sys.setWorld w) c = some fs := hfs'
    have hacq' : acquire env.toEnv fs c.path c.dirHint (m.sys.setWorld w).world =
        (.opened uf (some l) r, w') := hacq
    refine hne ?_
    simp only [Sys.open, hfs'', hacq']
    exact (Sys.load_kept fs r hforce hdec).1

/-! ## A run of timer ticks -/

theorem ShowsOnly.keep (h : ShowsOnly listed m₀ m)
    (hfiles : ∀ f ∈ m'.slideShow.files, f ∈ m.slideShow.files) (hdoc : m'.sys.doc = m.sys.doc) :
    ShowsOnly listed m₀ m' := by
  constructor
  · intro f hf
    exact h.files f (hfiles f hf)
  · rw [hdoc]
    exact h.shown

theorem ShowsOnly.reorder (h : ShowsOnly listed m₀ m) : ShowsOnly listed m₀ (m.reorder env) := by
  obtain ⟨files, w, hperm, -, hre⟩ := reorder_spec env m
  rw [hre]
  refine h.keep ?_ rfl
  intro f hf
  exact hperm.mem_iff.mp hf

theorem ShowsOnly.step (env : SlideEnv W F I) (h : ShowsOnly listed m₀ m) :
    ShowsOnly listed m₀ (m.stepSlideShowIndex env).2 := by
  rcases stepSlideShowIndex_cases env m with ⟨-, heq⟩ | ⟨-, -, heq⟩ | ⟨-, -, heq⟩
  · rw [heq]
    exact h.keep (fun f hf => hf) rfl
  · rw [heq]
    refine h.keep ?_ rfl
    intro f hf
    cases hf
  · rw [heq]
    have hmoved : ShowsOnly listed m₀ (m.moveTo 0 (m.slideShow.round + 1)) :=
      h.keep (fun f hf => hf) rfl
    exact hmoved.reorder

theorem listedFile_mem (h : InRange m) : m.listedFile ∈ m.slideShow.files := by
  have h0 := h.nonneg
  have hlt := h.lt
  have hto : m.slideShow.index.toNat < m.slideShow.files.length := by omega
  rw [listedFile, ← List.getElem_eq_getD (h := hto)]
  exact List.getElem_mem hto

/-- A call that does not substitute a file keeps the screen to the list. -/
theorem ShowsOnly.open (h : ShowsOnly listed m₀ m) (hin : InRange m) (hno : ¬ Substituted env m) :
    ShowsOnly listed m₀ (m.openSlideShowCurrent env).2 := by
  constructor
  · obtain ⟨custom, w, -, hopen⟩ := openSlideShowCurrent_inRange env hin
    rw [hopen]
    exact h.files
  · intro img himg
    rcases openSlideShowCurrent_shows env hin with
      ⟨-, ⟨img', himg', hpath⟩, hiff⟩ | ⟨-, -, hnone | ⟨hsame, hp⟩⟩
    · right
      obtain rfl : img = img' := Option.some.inj (himg.symm.trans himg')
      have heq := not_not.mp (mt hiff.mp hno)
      refine ⟨hpath, ?_⟩
      rw [heq]
      exact h.files _ (listedFile_mem hin)
    · rw [hnone] at himg
      cases himg
    · rw [hsame] at himg
      rw [hp]
      exact h.shown img himg

theorem ShowsOnly.resetTimer (h : ShowsOnly listed m₀ m) :
    ShowsOnly listed m₀ m.resetSlideShowTimer := by
  refine h.keep ?_ ?_
  · intro f hf
    rwa [resetSlideShowTimer_files] at hf
  · rw [resetSlideShowTimer_sys]

/-- A loop of attempts, none of which substitutes a file. -/
theorem ShowsOnly.advanceLoop (attempts : Nat) (h : ShowsOnly listed m₀ m) (hready : Ready m)
    (hno : ∀ m₁ ∈ attemptStates env attempts m, ¬ Substituted env m₁) :
    ShowsOnly listed m₀ (advanceLoop env attempts m) := by
  induction attempts generalizing m with
  | zero =>
    refine h.keep ?_ rfl
    intro f hf
    cases hf
  | succ attempts ih =>
    have hstep' := h.step env
    cases hstep : m.stepSlideShowIndex env with
    | mk go m₁ =>
      simp only [MainWnd.advanceLoop, attemptStates, hstep] at hno hstep' ⊢
      cases go with
      | false => exact hstep'
      | true =>
        have hready₁ := hready.step hstep
        have hopen' := hstep'.open hready₁.toInRange (hno m₁ (List.mem_cons_self ..))
        rcases openSlideShowCurrent_cases env hready₁ with
          ⟨m₂, hopen, -⟩ | ⟨m₂, hopen, hready₂, -⟩
        · simp only [hopen] at hopen' ⊢
          exact hopen'.resetTimer
        · simp only [hopen] at hopen' hno ⊢
          refine ih hopen' hready₂ ?_
          intro m₃ hm₃
          exact hno m₃ (List.mem_cons_of_mem _ hm₃)

theorem ShowsOnly.advance (h : ShowsOnly listed m₀ m) (hm : Playing m ∨ Stopped m)
    (hno : ∀ m₁ ∈ tickStates env m, ¬ Substituted env m₁) :
    ShowsOnly listed m₀ (m.advanceSlideShow env) := by
  rcases hm with hm | hm
  · rw [advanceSlideShow_ready env hm.toReady]
    exact h.advanceLoop _ hm.toReady hno
  · rw [advanceSlideShow_stopped env hm]
    exact h

theorem startSlideShow_showsOnly (o : SlideShowOptions)
    (hno : ∀ m₁ ∈ startStates env m₀ o, ¬ Substituted env m₁) :
    ShowsOnly (buildSlideShowFiles m₀.sys.doc o) m₀ (m₀.startSlideShow env o) := by
  unfold startSlideShow
  unfold startStates at hno
  rcases prepareSlideShow_cases env m₀ o with ⟨-, hstop, -, hdoc⟩ | ⟨files, w, hperm, hne, -, hprep⟩
  · simp only [hstop.files, if_true]
    constructor
    · intro f hf
      rw [hstop.files] at hf
      cases hf
    · intro img himg
      left
      rw [hdoc] at himg ⊢
      exact ⟨himg, rfl⟩
  · rw [hprep] at hno ⊢
    simp only [hne, if_false] at hno ⊢
    have hready : Ready { m₀ with
        sys := m₀.sys.setWorld w, slideShow := ⟨true, none, o, files, 0, 0⟩ } := by
      have hlen := List.length_pos_iff.mpr hne
      refine ⟨⟨Int.le_refl 0, ?_⟩, rfl⟩
      simp
      omega
    have hprepared : ShowsOnly (buildSlideShowFiles m₀.sys.doc o) m₀ { m₀ with
        sys := m₀.sys.setWorld w, slideShow := ⟨true, none, o, files, 0, 0⟩ } := by
      constructor
      · intro f hf
        exact hperm.mem_iff.mp hf
      · intro img himg
        exact .inl ⟨himg, rfl⟩
    have hopen' := hprepared.open hready.toInRange (hno _ (List.mem_cons_self ..))
    rcases openSlideShowCurrent_cases env hready with ⟨m', hopen, -⟩ | ⟨m', hopen, hr, -⟩
    · simp only [hopen] at hopen' ⊢
      exact hopen'.resetTimer
    · simp only [hopen] at hopen' hno ⊢
      rw [advanceSlideShow_ready env hr]
      refine hopen'.advanceLoop _ hr ?_
      intro m₁ hm₁
      exact hno m₁ (List.mem_cons_of_mem _ hm₁)

/-- **The slide show shows its listed file** exactly when no other file is substituted for it; over
a start and any number of ticks without a substitution only files of the list come on screen. -/
theorem openSlideShowCurrent_shows_listed (env : SlideEnv W F I) :
    (∀ m : MainWnd W I,
      ((m.openSlideShowCurrent env).1 = true →
          (m.openSlideShowCurrent env).2.sys.doc.path = m.listedFile) ↔ ¬ Substituted env m) ∧
      ∀ (m₀ : MainWnd W I) (o : SlideShowOptions) (k : Nat),
        (∀ m₁ ∈ startStates env m₀ o, ¬ Substituted env m₁) →
        (∀ j < k, ∀ m₁ ∈ tickStates env (ticks env j (m₀.startSlideShow env o)),
          ¬ Substituted env m₁) →
        ShowsOnly (buildSlideShowFiles m₀.sys.doc o) m₀ (ticks env k (m₀.startSlideShow env o)) := by
  constructor
  · intro m
    by_cases hin : InRange m
    · rcases openSlideShowCurrent_shows env hin with ⟨hok, -, hiff⟩ | ⟨hok, hno, -⟩
      · rw [← hiff]
        simp [hok]
      · simp [hok, hno]
    · have hout : m.slideShow.index < 0 ∨ m.slideShow.index ≥ m.slideShow.files.length := by
        by_contra hcon
        refine hin ⟨by omega, by omega⟩
      have hfalse : m.openSlideShowCurrent env = (false, m) := by
        unfold openSlideShowCurrent
        simp only
        rw [if_pos hout]
      refine iff_of_true ?_ (fun h => hin h.1)
      rw [hfalse]
      intro htrue
      cases htrue
  · intro m₀ o k hstart hticks
    induction k with
    | zero => exact startSlideShow_showsOnly o hstart
    | succ k ih =>
      have hk := ih fun j hj => hticks j (Nat.lt_succ_of_lt hj)
      have hm := ticks_consistent env m₀ o k
      simp only [ticks, onTimer]
      split
      · exact hk.advance hm (hticks k (Nat.lt_succ_self k))
      · exact hk

end MainWnd

/-- A custom list with a file that is gone from its folder. -/
def goneFile : SlideShowOptions where
  source := .SOURCE_CUSTOM
  customItems := ["/c/b.png".toList]

/-- The show of `/c/b.png`, which is gone, shows `/c/d.png`. -/
theorem slideShow_shows_neighbour :
    let r := (closedWindow.prepareSlideShow albumShow goneFile).openSlideShowCurrent albumShow
    let m := closedWindow.startSlideShow albumShow goneFile
    r.1 = true ∧ r.2.listedFile = "/c/b.png".toList ∧ r.2.sys.doc.path = "/c/d.png".toList ∧
      m.slideShow.active = true ∧ m.sys.doc.path = "/c/d.png".toList ∧
      m.sys.doc.path ∉ m.slideShow.files := by
  decide

/-- A show of two files that are there. -/
theorem slideShow_shows_album :
    MainWnd.ShowsOnly ["/c/a.png".toList, "/c/d.png".toList] closedWindow
      (MainWnd.ticks albumShow 3 (closedWindow.startSlideShow albumShow twoRounds)) := by
  obtain ⟨hiff, hrun⟩ := MainWnd.openSlideShowCurrent_shows_listed albumShow
  refine hrun closedWindow twoRounds 3 ?_ ?_
  · intro m₁ hm₁
    refine (hiff m₁).mp ?_
    revert m₁
    decide
  · intro j hj m₁ hm₁
    refine (hiff m₁).mp ?_
    revert m₁ j
    decide

end ObZrv

import ContentModels.Proofs.AddedTypes

/-!
# Display text and the tokens of generated code

Names and descriptions of content types and properties get into generated code as
comments only.  Two schemas that differ in nothing else fail alike or have models whose
texts are lexed alike, each token for token (`Generator.tokenKinds_file_eq`), where

* no static getter is written for a property whose name has a line feed, since the
  comment on a static getter is not divided into lines, and
* no comment or literal that code in front of a note opens is still open at the note.
  The alias of a mixin stands in a comment and may have line feeds as well, and types
  are written as they are configured, so both can open one.

Neither happens where aliases and the names of properties are one line each and what is
configured is read as what it stands for (`Generator.confinesDisplay`).
-/

namespace ContentModels

open CSharp

/-- The kinds of the tokens of a source text, if it is lexed without a fault. -/
def CSharp.tokenKinds (source : String) : Option (List TokenKind) :=
  (tokenize source).toOption.map fun l => l.tokens.map (·.kind)

theorem CSharp.tokenKinds_eq
    (source : String) :
    tokenKinds source = kindsFrom true source.toList :=
  rfl

namespace Generated.Layout

variable (l : Layout)

/-- The display text of a model makes notes, and these stand behind closed code. -/
structure ConfinesDisplay (modelsNamespace : String) (models : List Model) (m : Model) : Prop where
  getters : ¬ l.BreaksGetterComment m
  notes : NotesApart [] (l.fileLines modelsNamespace (l.types models m))

/-- A file has the same code without display text. -/
theorem sameCode_fileLines
    {m : Model}
    (h : ¬ l.BreaksGetterComment m) (modelsNamespace : String) (models : List Model) :
    SameCode (l.fileLines modelsNamespace (l.types models m))
      (l.fileLines modelsNamespace (l.types (models.map (·.eraseDisplay)) m.eraseDisplay)) :=
  ((SameCode.refl _).append (l.sameCode_types h models)).append (.refl _)

theorem tokenKinds_file
    (modelsNamespace : String) (body : List String) :
    tokenKinds (l.file modelsNamespace body) =
      kindsFrom true (textOf (l.fileLines modelsNamespace body)).toList := by
  have hfile : l.file modelsNamespace body = textOf (l.fileLines modelsNamespace body) := rfl
  rw [tokenKinds_eq, hfile]

/-- The display text of a model that can be read back makes notes behind closed code. -/
theorem confinesDisplay_of_isReadable
    {l : Layout} {m : Model} {models : List Model} {modelsNamespace : String}
    {version : LanguageVersion} {reference : TypeName}
    (h : m.IsReadable l models) (husings : ∀ u ∈ l.usings, IsDotted u)
    (hnamespace : IsDotted modelsNamespace) (hbodies : SupportsBodies l version)
    (hreference : ReferenceRead version (l.shorten (l.settings.referenceType m.type.kind)) reference) :
    l.ConfinesDisplay modelsNamespace models m := by
  obtain ⟨forms, hlines, -⟩ := exists_forms (hasOutline_types h husings hbodies hreference)
  rw [← types_eq] at hlines
  obtain ⟨_, _, _, -, -, -, hfile⟩ := exists_fileLines husings hnamespace hlines
  refine ⟨?_, notesApart_of_closed hfile.closed ReadsAs.nil.closed⟩
  rintro ⟨-, -, p, hp, hbreaks⟩
  exact (h.ownProperties p hp).displayName hbreaks

end Generated.Layout

namespace Generator

open Generated Outcome

/-- Models of schemas that differ in display text alone differ in display text alone. -/
theorem model_eraseDisplay_eq
    {g : Generator} {schema other : List ContentType}
    (hstandard : g.strategies = .standard g.settings)
    (hsource : g.settings.nameSource ≠ .displayName)
    (hschema : schema.map (·.eraseDisplay) = other.map (·.eraseDisplay))
    (sources : SourceFiles) :
    (g.model schema sources).map (·.eraseDisplay) =
      (g.model other sources).map (·.eraseDisplay) := by
  have hignores : g.strategies.IgnoresDisplay :=
    hstandard ▸ Strategies.ignoresDisplay_standard hsource
  unfold model
  cases g.collect sources with
  | error e => rfl
  | ok options =>
    calc
      (CodeModel.build g.settings g.strategies schema options).map (·.eraseDisplay) =
          CodeModel.build g.settings g.strategies (schema.map (·.eraseDisplay)) options :=
        (CodeModel.build_eraseDisplay hignores _ _ _).symm
      _ = CodeModel.build g.settings g.strategies (other.map (·.eraseDisplay)) options := by
        rw [hschema]
      _ = (CodeModel.build g.settings g.strategies other options).map (·.eraseDisplay) :=
        CodeModel.build_eraseDisplay hignores _ _ _

/--
Display text makes no difference to the tokens of generated code: where schemas differ in
it alone, no models are built or models whose texts are lexed alike.
-/
theorem tokenKinds_file_eq
    {g : Generator} {schema other : List ContentType} {sources : SourceFiles}
    (hstandard : g.strategies = .standard g.settings)
    (hsource : g.settings.nameSource ≠ .displayName)
    (hschema : schema.map (·.eraseDisplay) = other.map (·.eraseDisplay)) :
    (g.model schema sources).map (·.eraseDisplay) =
        (g.model other sources).map (·.eraseDisplay) ∧
      ∀ (m n : CodeModel) (l : Layout), g.model schema sources = .ok m → g.model other sources = .ok n →
        Layout.ofSettings g.settings m.usingNamespaces = .ok l →
        Layout.ofSettings g.settings n.usingNamespaces = .ok l ∧
          m.models.length = n.models.length ∧
          ∀ (i : Nat) (x y : Model), m.models[i]? = some x → n.models[i]? = some y →
            l.ConfinesDisplay m.modelsNamespace m.models x → ¬ l.BreaksGetterComment y →
            x.name = y.name ∧
              tokenKinds (l.file m.modelsNamespace (l.types m.models x)) =
                tokenKinds (l.file n.modelsNamespace (l.types n.models y)) := by
  have hmodel := model_eraseDisplay_eq hstandard hsource hschema sources
  refine ⟨hmodel, fun m n l hm hn hl => ?_⟩
  rw [hm, hn] at hmodel
  have heq : m.eraseDisplay = n.eraseDisplay := Except.ok.inj hmodel
  have hnamespace : m.modelsNamespace = n.modelsNamespace := congrArg (·.modelsNamespace) heq
  have husings : m.usingNamespaces = n.usingNamespaces := congrArg (·.usingNamespaces) heq
  have hmodels : m.models.map (·.eraseDisplay) = n.models.map (·.eraseDisplay) :=
    congrArg (·.models) heq
  refine ⟨husings ▸ hl, by simpa using congrArg List.length hmodels, ?_⟩
  intro i x y hx hy hconfined hgetters
  have herased : x.eraseDisplay = y.eraseDisplay := by
    have hi := congrArg (·[i]?) hmodels
    simpa [hx, hy] using hi
  refine ⟨congrArg (·.name) herased, ?_⟩
  have hfirst := l.sameCode_fileLines hconfined.getters m.modelsNamespace m.models
  have hsecond := l.sameCode_fileLines hgetters n.modelsNamespace n.models
  rw [hmodels, herased, hnamespace] at hfirst
  rw [hnamespace]
  -- Notes stand in the same places in both texts, so they stand apart in the other as well.
  have hnotes := hconfined.notes
  rw [hnamespace] at hnotes
  obtain ⟨hkinds, hnotes⟩ := hfirst.kindsFrom_eq hnotes
  obtain ⟨hkinds', -⟩ := hsecond.symm.kindsFrom_eq hnotes
  rw [List.nil_append, List.nil_append] at hkinds hkinds'
  rw [l.tokenKinds_file, l.tokenKinds_file]
  exact hkinds.trans hkinds'

section Confined

variable {g : Generator} {schema : List ContentType} {options : CodeOptions} {m : CodeModel}
  {l : Layout} {t : Model}

/-- No name of a property breaks the comment on a static getter if all are one line each. -/
theorem not_breaksGetterComment
    (hbuild : CodeModel.build g.settings g.strategies schema options = .ok m)
    (hschema : ∀ t ∈ schema, t.IsOneLine) (ht : t ∈ m.models) :
    ¬ l.BreaksGetterComment t := by
  obtain ⟨_, _, _, _, hbuilt⟩ := CodeModel.exists_built hbuild
  rintro ⟨-, -, p, hp, hbreaks⟩
  have hmem := hbuilt.property_type_mem ht (List.mem_filter.1 hp).1
  exact ((hschema _ (hbuilt.type_mem ht)).properties _ hmem).2 hbreaks

/-- Display text is confined to notes where all that is generated can be read back. -/
theorem confinesDisplay
    (hbuild : CodeModel.build g.settings g.strategies schema options = .ok m)
    (hg : g.KeepsSettings) (hreadable : Pass.IsReadable g schema options m)
    (hl : Layout.ofSettings g.settings m.usingNamespaces = .ok l) (ht : t ∈ m.models) :
    l.ConfinesDisplay m.modelsNamespace m.models t := by
  obtain ⟨hsettings, hoptions, hschema, hmodel⟩ := hreadable
  obtain ⟨_, _, _, _, hbuilt⟩ := CodeModel.exists_built hbuild
  have husings : ∀ u ∈ l.usings, IsDotted u :=
    Layout.isDotted_usings hl (hbuilt.usingNamespaces ▸ CodeModel.isDotted_usings hsettings hoptions)
  have htype := hsettings.referenceType t.type.kind
  rw [← (Layout.ofSettings_eq_ok hl).1] at htype
  obtain ⟨reference, -, -, hreference⟩ := htype.exists_reference husings g.reader.version
  exact Layout.confinesDisplay_of_isReadable
    (hbuilt.isReadable hg.baseClass hsettings hoptions hschema hmodel hl ht) husings
    (hbuilt.isDotted_modelsNamespace hsettings hoptions) (Layout.supportsBodies hl hg.version) hreference

end Confined

/-- Pages with texts for display that would end a comment or open one. -/
def displayedSchema : List ContentType :=
  pageSchema.map fun t => { t with
    name := "*/ \" /*"
    description := some "\x7d */\n/* class \x7b"
    properties := t.properties.map fun p => { p with
      name := "</summary> */ \""
      description := some "\n\n*/" } }

/-- The files of pages have the same tokens with these texts. -/
theorem tokenKinds_file_eq_page :
    ∃ (g : Generator) (m n : CodeModel) (l : Layout), ofSettings .standard = .ok g ∧
      g.model displayedSchema .empty = .ok m ∧ g.model pageSchema .empty = .ok n ∧
        m.models.length = 2 ∧ (∀ x ∈ m.models, x.type.name = "*/ \" /*") ∧
          m.models.length = n.models.length ∧
          ∀ (i : Nat) (x y : Model), m.models[i]? = some x → n.models[i]? = some y →
            tokenKinds (l.file m.modelsNamespace (l.types m.models x)) =
              tokenKinds (l.file n.modelsNamespace (l.types n.models y)) := by
  obtain ⟨g, options, m, _, l, h, hshape⟩ := @exists_prepared displayedSchema .empty
    (fun _ _ m _ _ => decide (m.models.length = 2 ∧ ∀ x ∈ m.models, x.type.name = "*/ \" /*"))
    (by decide +kernel)
  obtain ⟨htwo, hnames⟩ := of_decide_eq_true hshape
  have hschema : ∀ t ∈ displayedSchema, t.IsOneLine := by decide +kernel
  obtain ⟨hsettings, hstrategies, -⟩ := ofSettings_eq_ok h.settings
  have hstandard : g.strategies = .standard g.settings := hsettings ▸ hstrategies
  have hsource : g.settings.nameSource ≠ .displayName := by
    rw [hsettings]
    decide
  obtain ⟨hmodel, hfiles⟩ :=
    @tokenKinds_file_eq g displayedSchema pageSchema .empty hstandard hsource (by decide +kernel)
  obtain ⟨n, hn⟩ : ∃ n, g.model pageSchema .empty = .ok n := by
    cases hn : g.model pageSchema .empty with
    | ok n => exact ⟨n, rfl⟩
    | error e =>
      rw [h.model, hn] at hmodel
      cases hmodel
  obtain ⟨options', hcollect, hbuild⟩ := bind_eq_ok.1 h.model
  obtain rfl : options = options' := Except.ok.inj (h.collect.symm.trans hcollect)
  obtain ⟨_, -, hbuild'⟩ := bind_eq_ok.1 hn
  obtain ⟨-, hlength, hkinds⟩ := hfiles m n l h.model hn h.ofSettings_layout
  refine ⟨g, m, n, l, h.settings, h.model, hn, htwo, hnames, hlength, fun i x y hx hy => ?_⟩
  have hconfined := confinesDisplay hbuild h.keepsSettings (h.isReadable hschema)
    h.ofSettings_layout (List.mem_of_getElem? hx)
  have hgetters := not_breaksGetterComment (l := l) hbuild' isOneLine_pageSchema
    (List.mem_of_getElem? hy)
  exact (hkinds i x y hx hy hconfined hgetters).2

end Generator
end ContentModels

import CilProbe.Power

/-!
# Metadata tables

The 45 tables of the metadata, numbered from zero in the order of `Table.all`. A coded index refers to a row of one of
several tables; its lowest bits say which. The schema of a table lists its columns and how each is stored.
-/

namespace CilProbe.Metadata

inductive Table where
  | module | typeRef | typeDef | fieldPtr | field | methodPtr | methodDef | paramPtr | param | interfaceImpl
  | memberRef | constant | customAttribute | fieldMarshal | declSecurity | classLayout | fieldLayout | standAloneSig
  | eventMap | eventPtr | event | propertyMap | propertyPtr | property | methodSemantics | methodImpl | moduleRef
  | typeSpec | implMap | fieldRVA | encLog | encMap | assembly | assemblyProcessor | assemblyOS | assemblyRef
  | assemblyRefProcessor | assemblyRefOS | file | exportedType | manifestResource | nestedClass | genericParam
  | methodSpec | genericParamConstraint
  deriving DecidableEq, Repr

namespace Table

/-- The tables by number. -/
def all : List Table :=
  [module, typeRef, typeDef, fieldPtr, field, methodPtr, methodDef, paramPtr, param, interfaceImpl, memberRef,
   constant, customAttribute, fieldMarshal, declSecurity, classLayout, fieldLayout, standAloneSig, eventMap, eventPtr,
   event, propertyMap, propertyPtr, property, methodSemantics, methodImpl, moduleRef, typeSpec, implMap, fieldRVA,
   encLog, encMap, assembly, assemblyProcessor, assemblyOS, assemblyRef, assemblyRefProcessor, assemblyRefOS, file,
   exportedType, manifestResource, nestedClass, genericParam, methodSpec, genericParamConstraint]

def index (t : Table) : Nat := t.ctorIdx

def ofIndex? (n : Nat) : Option Table := all[n]?

def name : Table → String
  | module => "Module"
  | typeRef => "TypeRef"
  | typeDef => "TypeDef"
  | fieldPtr => "FieldPtr"
  | field => "Field"
  | methodPtr => "MethodPtr"
  | methodDef => "MethodDef"
  | paramPtr => "ParamPtr"
  | param => "Param"
  | interfaceImpl => "InterfaceImpl"
  | memberRef => "MemberRef"
  | constant => "Constant"
  | customAttribute => "CustomAttribute"
  | fieldMarshal => "FieldMarshal"
  | declSecurity => "DeclSecurity"
  | classLayout => "ClassLayout"
  | fieldLayout => "FieldLayout"
  | standAloneSig => "StandAloneSig"
  | eventMap => "EventMap"
  | eventPtr => "EventPtr"
  | event => "Event"
  | propertyMap => "PropertyMap"
  | propertyPtr => "PropertyPtr"
  | property => "Property"
  | methodSemantics => "MethodSemantics"
  | methodImpl => "MethodImpl"
  | moduleRef => "ModuleRef"
  | typeSpec => "TypeSpec"
  | implMap => "ImplMap"
  | fieldRVA => "FieldRVA"
  | encLog => "EncLog"
  | encMap => "EncMap"
  | assembly => "Assembly"
  | assemblyProcessor => "AssemblyProcessor"
  | assemblyOS => "AssemblyOS"
  | assemblyRef => "AssemblyRef"
  | assemblyRefProcessor => "AssemblyRefProcessor"
  | assemblyRefOS => "AssemblyRefOS"
  | file => "File"
  | exportedType => "ExportedType"
  | manifestResource => "ManifestResource"
  | nestedClass => "NestedClass"
  | genericParam => "GenericParam"
  | methodSpec => "MethodSpec"
  | genericParamConstraint => "GenericParamConstraint"

def ofName? (name : String) : Option Table := all.find? (·.name == name)

theorem map_index_all : all.map index = List.range 45 := rfl

theorem ofIndex?_eq_some_iff {n : Nat} {table : Table} : ofIndex? n = some table ↔ table.index = n := by
  constructor
  · intro h
    have hindex := congrArg (Option.map index) h
    rw [ofIndex?, ← List.getElem?_map, map_index_all] at hindex
    obtain ⟨_, hn⟩ := List.getElem?_eq_some_iff.1 hindex
    rw [List.getElem_range] at hn
    exact hn.symm
  · rintro rfl
    cases table <;> rfl

theorem mem_all (table : Table) : table ∈ all := List.mem_of_getElem? (ofIndex?_eq_some_iff.2 rfl)

theorem ofName?_name (table : Table) : ofName? table.name = some table := by
  have h : ∀ t ∈ all, ofName? t.name = some t := by decide +kernel
  exact h table (mem_all table)

end Table

/-- The kinds of index that choose among several tables. -/
inductive CodedIndex where
  | typeDefOrRef | hasConstant | hasCustomAttribute | hasFieldMarshal | hasDeclSecurity | memberRefParent
  | hasSemantics | methodDefOrRef | memberForwarded | implementation | customAttributeType | resolutionScope
  | typeOrMethodDef
  deriving DecidableEq, Repr

namespace CodedIndex

def all : List CodedIndex :=
  [typeDefOrRef, hasConstant, hasCustomAttribute, hasFieldMarshal, hasDeclSecurity, memberRefParent, hasSemantics,
   methodDefOrRef, memberForwarded, implementation, customAttributeType, resolutionScope, typeOrMethodDef]

def name : CodedIndex → String
  | typeDefOrRef => "TypeDefOrRef"
  | hasConstant => "HasConstant"
  | hasCustomAttribute => "HasCustomAttribute"
  | hasFieldMarshal => "HasFieldMarshal"
  | hasDeclSecurity => "HasDeclSecurity"
  | memberRefParent => "MemberRefParent"
  | hasSemantics => "HasSemantics"
  | methodDefOrRef => "MethodDefOrRef"
  | memberForwarded => "MemberForwarded"
  | implementation => "Implementation"
  | customAttributeType => "CustomAttributeType"
  | resolutionScope => "ResolutionScope"
  | typeOrMethodDef => "TypeOrMethodDef"

def ofName? (name : String) : Option CodedIndex := all.find? (·.name == name)

open Table in
/-- The tables that the tags stand for, in order. -/
def tables : CodedIndex → List Table
  | typeDefOrRef => [typeDef, typeRef, typeSpec]
  | hasConstant => [field, param, property]
  | hasCustomAttribute =>
    [methodDef, field, typeRef, typeDef, param, interfaceImpl, memberRef, module, declSecurity, property, event,
     standAloneSig, moduleRef, typeSpec, assembly, assemblyRef, file, exportedType, manifestResource, genericParam,
     genericParamConstraint, methodSpec]
  | hasFieldMarshal => [field, param]
  | hasDeclSecurity => [typeDef, methodDef, assembly]
  | memberRefParent => [typeDef, typeRef, moduleRef, methodDef, typeSpec]
  | hasSemantics => [event, property]
  | methodDefOrRef => [methodDef, memberRef]
  | memberForwarded => [field, methodDef]
  | implementation => [file, assemblyRef, exportedType]
  | customAttributeType => [methodDef, methodDef, methodDef, memberRef, methodDef]
  | resolutionScope => [module, moduleRef, assemblyRef, typeRef]
  | typeOrMethodDef => [typeDef, methodDef]

/-- The number of bits of the tag. -/
def bits (k : CodedIndex) : Nat := (k.tables.length - 1).log2 + 1

/-- The tag of a value. -/
def tag (k : CodedIndex) (value : Nat) : Nat := value % 2 ^ k.bits

/-- The row that a value refers to, unless its tag stands for no table. -/
def decode? (k : CodedIndex) (value : Nat) : Option (Table × Nat) :=
  k.tables[k.tag value]?.map fun table => (table, value / 2 ^ k.bits)

/-- The value that refers to a row of the table with this tag. -/
def encode (k : CodedIndex) (tag rid : Nat) : Nat := rid * 2 ^ k.bits + tag

/-- The bits of the tag suffice for all tables. -/
theorem lt_of_getElem?_tables {k : CodedIndex} {tag : Nat} {table : Table} (h : k.tables[tag]? = some table) :
    tag < 2 ^ k.bits := by
  obtain ⟨hlt, -⟩ := List.getElem?_eq_some_iff.1 h
  refine Nat.lt_of_lt_of_le hlt ?_
  cases k <;> decide

theorem decode?_encode {k : CodedIndex} {tag rid : Nat} {table : Table} (h : k.tables[tag]? = some table) :
    k.decode? (k.encode tag rid) = some (table, rid) := by
  have hlt := lt_of_getElem?_tables h
  have hpos : 0 < 2 ^ k.bits := Nat.two_pow_pos _
  have ht : k.tag (k.encode tag rid) = tag := by
    simp [CodedIndex.tag, encode, Nat.mod_eq_of_lt hlt]
  have hr : k.encode tag rid / 2 ^ k.bits = rid := by
    rw [encode, Nat.mul_comm, Nat.mul_add_div hpos, Nat.div_eq_of_lt hlt, Nat.add_zero]
  simp [decode?, ht, hr, h]

end CodedIndex

/-- How a column is stored. -/
inductive ColumnKind where
  /-- A number of so many bytes. -/
  | fixed (width : Nat)
  | string
  | guid
  | blob
  /-- The number of a row of one table. -/
  | simple (table : Table)
  | coded (kind : CodedIndex)
  deriving DecidableEq, Repr

open ColumnKind CodedIndex in
/-- The columns of a table in order, by name. -/
def Table.schema : Table → List (String × ColumnKind)
  | .module => [("Generation", fixed 2), ("Name", string), ("Mvid", guid), ("EncId", guid), ("EncBaseId", guid)]
  | .typeRef => [("ResolutionScope", coded resolutionScope), ("TypeName", string), ("TypeNamespace", string)]
  | .typeDef =>
    [("Flags", fixed 4), ("TypeName", string), ("TypeNamespace", string), ("Extends", coded typeDefOrRef),
     ("FieldList", simple .field), ("MethodList", simple .methodDef)]
  | .fieldPtr => [("Field", simple .field)]
  | .field => [("Flags", fixed 2), ("Name", string), ("Signature", blob)]
  | .methodPtr => [("Method", simple .methodDef)]
  | .methodDef =>
    [("RVA", fixed 4), ("ImplFlags", fixed 2), ("Flags", fixed 2), ("Name", string), ("Signature", blob),
     ("ParamList", simple .param)]
  | .paramPtr => [("Param", simple .param)]
  | .param => [("Flags", fixed 2), ("Sequence", fixed 2), ("Name", string)]
  | .interfaceImpl => [("Class", simple .typeDef), ("Interface", coded typeDefOrRef)]
  | .memberRef => [("Class", coded memberRefParent), ("Name", string), ("Signature", blob)]
  | .constant => [("Type", fixed 1), ("Padding", fixed 1), ("Parent", coded hasConstant), ("Value", blob)]
  | .customAttribute => [("Parent", coded hasCustomAttribute), ("Type", coded customAttributeType), ("Value", blob)]
  | .fieldMarshal => [("Parent", coded hasFieldMarshal), ("NativeType", blob)]
  | .declSecurity => [("Action", fixed 2), ("Parent", coded hasDeclSecurity), ("PermissionSet", blob)]
  | .classLayout => [("PackingSize", fixed 2), ("ClassSize", fixed 4), ("Parent", simple .typeDef)]
  | .fieldLayout => [("Offset", fixed 4), ("Field", simple .field)]
  | .standAloneSig => [("Signature", blob)]
  | .eventMap => [("Parent", simple .typeDef), ("EventList", simple .event)]
  | .eventPtr => [("Event", simple .event)]
  | .event => [("EventFlags", fixed 2), ("Name", string), ("EventType", coded typeDefOrRef)]
  | .propertyMap => [("Parent", simple .typeDef), ("PropertyList", simple .property)]
  | .propertyPtr => [("Property", simple .property)]
  | .property => [("Flags", fixed 2), ("Name", string), ("Type", blob)]
  | .methodSemantics => [("Semantics", fixed 2), ("Method", simple .methodDef), ("Association", coded hasSemantics)]
  | .methodImpl =>
    [("Class", simple .typeDef), ("MethodBody", coded methodDefOrRef), ("MethodDeclaration", coded methodDefOrRef)]
  | .moduleRef => [("Name", string)]
  | .typeSpec => [("Signature", blob)]
  | .implMap =>
    [("MappingFlags", fixed 2), ("MemberForwarded", coded memberForwarded), ("ImportName", string),
     ("ImportScope", simple .moduleRef)]
  | .fieldRVA => [("RVA", fixed 4), ("Field", simple .field)]
  | .encLog => [("Token", fixed 4), ("FuncCode", fixed 4)]
  | .encMap => [("Token", fixed 4)]
  | .assembly =>
    [("HashAlgId", fixed 4), ("MajorVersion", fixed 2), ("MinorVersion", fixed 2), ("BuildNumber", fixed 2),
     ("RevisionNumber", fixed 2), ("Flags", fixed 4), ("PublicKey", blob), ("Name", string), ("Culture", string)]
  | .assemblyProcessor => [("Processor", fixed 4)]
  | .assemblyOS => [("OSPlatformID", fixed 4), ("OSMajorVersion", fixed 4), ("OSMinorVersion", fixed 4)]
  | .assemblyRef =>
    [("MajorVersion", fixed 2), ("MinorVersion", fixed 2), ("BuildNumber", fixed 2), ("RevisionNumber", fixed 2),
     ("Flags", fixed 4), ("PublicKeyOrToken", blob), ("Name", string), ("Culture", string), ("HashValue", blob)]
  | .assemblyRefProcessor => [("Processor", fixed 4), ("AssemblyRef", simple .assemblyRef)]
  | .assemblyRefOS =>
    [("OSPlatformID", fixed 4), ("OSMajorVersion", fixed 4), ("OSMinorVersion", fixed 4),
     ("AssemblyRef", simple .assemblyRef)]
  | .file => [("Flags", fixed 4), ("Name", string), ("HashValue", blob)]
  | .exportedType =>
    [("Flags", fixed 4), ("TypeDefId", fixed 4), ("TypeName", string), ("TypeNamespace", string),
     ("Implementation", coded implementation)]
  | .manifestResource =>
    [("Offset", fixed 4), ("Flags", fixed 4), ("Name", string), ("Implementation", coded implementation)]
  | .nestedClass => [("NestedClass", simple .typeDef), ("EnclosingClass", simple .typeDef)]
  | .genericParam =>
    [("Number", fixed 2), ("Flags", fixed 2), ("Owner", coded typeOrMethodDef), ("Name", string)]
  | .methodSpec => [("Method", coded methodDefOrRef), ("Instantiation", blob)]
  | .genericParamConstraint => [("Owner", simple .genericParam), ("Constraint", coded typeDefOrRef)]

end CilProbe.Metadata

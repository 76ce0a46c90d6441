import CilProbe.Metadata.Table

/-!
# Tokens

A token names a row: the number of its table in bits 24 to 31, and the number of the row below. Only some tables have
tokens. Tokens with the table number 0x70 name literal strings by their offset.

A token that is asked for may be any integer; its bits are those of its two's complement.
-/

namespace CilProbe.Metadata.Token

open Table in
/-- The tables whose rows have tokens. -/
def tables : List Table :=
  [module, typeRef, typeDef, field, methodDef, param, interfaceImpl, memberRef, customAttribute, declSecurity,
   standAloneSig, event, property, moduleRef, typeSpec, assembly, assemblyRef, file, exportedType, manifestResource,
   genericParam, methodSpec, genericParamConstraint]

/-- The table that a token belongs to; bits from 32 on do not count. -/
def table? (token : Int) : Option Table := tables.find? fun table => (table.index : Int) == token / 2 ^ 24 % 2 ^ 8

/-- The number of the row. -/
def rid (token : Int) : Nat := (token % 2 ^ 24).toNat

/-- The token of a row. -/
def make (table : Table) (rid : Nat) : Nat := table.index <<< 24 ||| rid

/-- The same for any row number, by the bits of its two's complement. -/
def makeSigned (table : Table) : Int → Int
  | .ofNat rid => make table rid
  | .negSucc n => .negSucc (n - (n &&& table.index <<< 24))

/-- Whether a token names a literal string. -/
def isString (token : Int) : Bool := token / 2 ^ 24 == 0x70

end CilProbe.Metadata.Token

import HandlerRegistry.Artifact.Template

/-!
# The C header

The header declares every entry point and defines `collect_handlers`, which enters all of them into
a new hash table. It can express every handler, and does not look at the files behind them.
-/

namespace HandlerRegistry.Artifact.CHeader
set_option autoImplicit false

/-- The guard against a second inclusion. -/
def guardName : String := "_GENERATED_H_"

def preamble : String :=
  "/* Generated by protoreg. Do not edit. */\n#ifndef " ++ guardName ++ "\n#define " ++ guardName ++
    "\n\n"

def declaration (source : HandlerSource) : String :=
  "extern mget_err " ++ source.id.symbol ++
    "(dinfo*, dp_callback, bool*, mget_option*, void*);"

def opening (capacity : Nat) : String :=
  "\n\nhash_table* collect_handlers()\n\x7b\n    hash_table* tbl = hash_table_create(" ++
    capacity.repr ++ ", NULL);\n    if (tbl)\n    \x7b\n"

/-- The statement that enters a handler into the table. -/
def registration (source : HandlerSource) : String :=
  "        hash_table_insert(tbl, \"" ++ source.id.text ++ "\", " ++ source.id.symbol ++
    ", sizeof(void*));"

def closing : String :=
  "\n    \x7d\n\n    return tbl;\n\x7d\n\n#endif /* " ++ guardName ++ " */\n"

def template : Template where
  check _ := .ok ()
  preamble := preamble
  declaration _ source := .ok (declaration source)
  opening _ capacity := opening capacity
  registration := registration
  closing := closing

end HandlerRegistry.Artifact.CHeader

import AqaAssembly.Grammar.Written

/-!
# The text of the standard grammar

The standard grammar as it is written, line after line.  A program that comes with no grammar of its
own is read with the grammar that this text describes.
-/

namespace AqaAssembly.Grammar

/-- The text with the given lines. -/
def textOfLines (lines : List String) : String := String.join (lines.map (· ++ "\n"))

/-- The lines of the text of the standard grammar. -/
def standardLines : List String := [
  "\x7b",
  "    \"LDR\": [",
  "        \x7b",
  "            \"kind\": \"Register\",",
  "            \"error\": \"Expect register after LDR\"",
  "        \x7d,",
  "        \x7b",
  "            \"kind\": \"Comma\",",
  "            \"error\": \"Expect comma after register\"",
  "        \x7d,",
  "        \x7b",
  "            \"kind\": \"DirectAddress\",",
  "            \"error\": \"Expect direct address (memory reference) after comma\"",
  "        \x7d",
  "    ],",
  "    \"STR\": [",
  "        \x7b",
  "            \"kind\": \"Register\",",
  "            \"error\": \"Expect register after STR\"",
  "        \x7d,",
  "        \x7b",
  "            \"kind\": \"Comma\",",
  "            \"error\": \"Expect comma after register\"",
  "        \x7d,",
  "        \x7b",
  "            \"kind\": \"DirectAddress\",",
  "            \"error\": \"Expect direct address (memory reference) after comma\"",
  "        \x7d",
  "    ],",
  "    \"ADD\": [",
  "        \x7b",
  "            \"kind\": \"Register\",",
  "            \"error\": \"Expect register d after ADD\"",
  "        \x7d,",
  "        \x7b",
  "            \"kind\": \"Comma\",",
  "            \"error\": \"Expect comma after register d\"",
  "        \x7d,",
  "        \x7b",
  "            \"kind\": \"Register\",",
  "            \"error\": \"Expect register n after comma\"",
  "        \x7d,",
  "        \x7b",
  "            \"kind\": \"Comma\",",
  "            \"error\": \"Expect comma after register n\"",
  "        \x7d,",
  "        \x7b",
  "            \"kind\": \"Operand\",",
  "            \"error\": \"Expect operand 2 (register or immediate value) after comma\"",
  "        \x7d",
  "    ],",
  "    \"SUB\": [",
  "        \x7b",
  "            \"kind\": \"Register\",",
  "            \"error\": \"Expect register d after SUB\"",
  "        \x7d,",
  "        \x7b",
  "            \"kind\": \"Comma\",",
  "            \"error\": \"Expect comma after register d\"",
  "        \x7d,",
  "        \x7b",
  "            \"kind\": \"Register\",",
  "            \"error\": \"Expect register n after comma\"",
  "        \x7d,",
  "        \x7b",
  "            \"kind\": \"Comma\",",
  "            \"error\": \"Expect comma after register n\"",
  "        \x7d,",
  "        \x7b",
  "            \"kind\": \"Operand\",",
  "            \"error\": \"Expect operand 2 (register or immediate value) after comma\"",
  "        \x7d",
  "    ],",
  "    \"MOV\": [",
  "        \x7b",
  "            \"kind\": \"Register\",",
  "            \"error\": \"Expect register d after MOV\"",
  "        \x7d,",
  "        \x7b",
  "            \"kind\": \"Comma\",",
  "            \"error\": \"Expect comma after register d\"",
  "        \x7d,",
  "        \x7b",
  "            \"kind\": \"Operand\",",
  "            \"error\": \"Expect operand 2 (register or immediate value) after comma\"",
  "        \x7d",
  "    ],",
  "    \"CMP\": [",
  "        \x7b",
  "            \"kind\": \"Register\",",
  "            \"error\": \"Expect register d after CMP\"",
  "        \x7d,",
  "        \x7b",
  "            \"kind\": \"Comma\",",
  "            \"error\": \"Expect comma after register d\"",
  "        \x7d,",
  "        \x7b",
  "            \"kind\": \"Operand\",",
  "            \"error\": \"Expect operand 2 (register or immediate value) after comma\"",
  "        \x7d",
  "    ],",
  "    \"B\": [",
  "        \x7b",
  "            \"kind\": \"Identifier\",",
  "            \"error\": \"Expect label identifier after B\"",
  "        \x7d",
  "    ],",
  "    \"BEQ\": [",
  "        \x7b",
  "            \"kind\": \"Identifier\",",
  "            \"error\": \"Expect label identifier after BEQ\"",
  "        \x7d",
  "    ],",
  "    \"BNE\": [",
  "        \x7b",
  "            \"kind\": \"Identifier\",",
  "            \"error\": \"Expect label identifier after BNE\"",
  "        \x7d",
  "    ],",
  "    \"BGT\": [",
  "        \x7b",
  "            \"kind\": \"Identifier\",",
  "            \"error\": \"Expect label identifier after BGT\"",
  "        \x7d",
  "    ],",
  "    \"BLT\": [",
  "        \x7b",
  "            \"kind\": \"Identifier\",",
  "            \"error\": \"Expect label identifier after BLT\"",
  "        \x7d",
  "    ],",
  "    \"AND\": [",
  "        \x7b",
  "            \"kind\": \"Register\",",
  "            \"error\": \"Expect register d after AND\"",
  "        \x7d,",
  "        \x7b",
  "            \"kind\": \"Comma\",",
  "            \"error\": \"Expect comma after register d\"",
  "        \x7d,",
  "        \x7b",
  "            \"kind\": \"Register\",",
  "            \"error\": \"Expect register n after comma\"",
  "        \x7d,",
  "        \x7b",
  "            \"kind\": \"Comma\",",
  "            \"error\": \"Expect comma after register n\"",
  "        \x7d,",
  "        \x7b",
  "            \"kind\": \"Operand\",",
  "            \"error\": \"Expect operand 2 (register or immediate value) after comma\"",
  "        \x7d",
  "    ],",
  "    \"ORR\": [",
  "        \x7b",
  "            \"kind\": \"Register\",",
  "            \"error\": \"Expect register d after ORR\"",
  "        \x7d,",
  "        \x7b",
  "            \"kind\": \"Comma\",",
  "            \"error\": \"Expect comma after register d\"",
  "        \x7d,",
  "        \x7b",
  "            \"kind\": \"Register\",",
  "            \"error\": \"Expect register n after comma\"",
  "        \x7d,",
  "        \x7b",
  "            \"kind\": \"Comma\",",
  "            \"error\": \"Expect comma after register n\"",
  "        \x7d,",
  "        \x7b",
  "            \"kind\": \"Operand\",",
  "            \"error\": \"Expect operand 2 (register or immediate value) after comma\"",
  "        \x7d",
  "    ],",
  "    \"EOR\": [",
  "        \x7b",
  "            \"kind\": \"Register\",",
  "            \"error\": \"Expect register d after EOR\"",
  "        \x7d,",
  "        \x7b",
  "            \"kind\": \"Comma\",",
  "            \"error\": \"Expect comma after register d\"",
  "        \x7d,",
  "        \x7b",
  "            \"kind\": \"Register\",",
  "            \"error\": \"Expect register n after comma\"",
  "        \x7d,",
  "        \x7b",
  "            \"kind\": \"Comma\",",
  "            \"error\": \"Expect comma after register n\"",
  "        \x7d,",
  "        \x7b",
  "            \"kind\": \"Operand\",",
  "            \"error\": \"Expect operand 2 (register or immediate value) after comma\"",
  "        \x7d",
  "    ],",
  "    \"MVN\": [",
  "        \x7b",
  "            \"kind\": \"Register\",",
  "            \"error\": \"Expect register d after MVN\"",
  "        \x7d,",
  "        \x7b",
  "            \"kind\": \"Comma\",",
  "            \"error\": \"Expect comma after register d\"",
  "        \x7d,",
  "        \x7b",
  "            \"kind\": \"Operand\",",
  "            \"error\": \"Expect operand 2 (register or immediate value) after comma\"",
  "        \x7d",
  "    ],",
  "    \"LSL\": [",
  "        \x7b",
  "            \"kind\": \"Register\",",
  "            \"error\": \"Expect register d after LSL\"",
  "        \x7d,",
  "        \x7b",
  "            \"kind\": \"Comma\",",
  "            \"error\": \"Expect comma after register d\"",
  "        \x7d,",
  "        \x7b",
  "            \"kind\": \"Register\",",
  "            \"error\": \"Expect register n after comma\"",
  "        \x7d,",
  "        \x7b",
  "            \"kind\": \"Comma\",",
  "            \"error\": \"Expect comma after register n\"",
  "        \x7d,",
  "        \x7b",
  "            \"kind\": \"Operand\",",
  "            \"error\": \"Expect operand 2 (register or immediate value) after comma\"",
  "        \x7d",
  "    ],",
  "    \"LSR\": [",
  "        \x7b",
  "            \"kind\": \"Register\",",
  "            \"error\": \"Expect register d after LSR\"",
  "        \x7d,",
  "        \x7b",
  "            \"kind\": \"Comma\",",
  "            \"error\": \"Expect comma after register d\"",
  "        \x7d,",
  "        \x7b",
  "            \"kind\": \"Register\",",
  "            \"error\": \"Expect register n after comma\"",
  "        \x7d,",
  "        \x7b",
  "            \"kind\": \"Comma\",",
  "            \"error\": \"Expect comma after register n\"",
  "        \x7d,",
  "        \x7b",
  "            \"kind\": \"Operand\",",
  "            \"error\": \"Expect operand 2 (register or immediate value) after comma\"",
  "        \x7d",
  "    ],",
  "    \"HALT\": []",
  "\x7d"]

/-- The text of the standard grammar. -/
def standardText : String := textOfLines standardLines

end AqaAssembly.Grammar

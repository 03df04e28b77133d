import MiniC.Diagnostic.Code

/-! # Explanations of the diagnostic codes

Every code has a page in Markdown that tells what the problem is, shows an example and says how
to mend it. A page is kept as the list of its lines.
-/

namespace MiniC.Explanation

def invalidCharacter : List String := [
  "# E0001: Invalid Character",
  "",
  "The source contains a character that does not start any token.",
  "",
  "Only ASCII letters, digits, `_`, the operators `= + - * /`, the",
  "punctuation `( ) \x7b \x7d , ;`, whitespace and comments are recognized.",
  "",
  "## Example",
  "",
  "```c",
  "int main() \x7b return 1 $ 2; \x7d",
  "```",
  "",
  "## Solution",
  "",
  "Remove the character or replace it with a supported operator."]

def invalidInteger : List String := [
  "# E0002: Invalid Integer Literal",
  "",
  "An integer literal does not fit in a 32-bit signed integer.",
  "",
  "## Example",
  "",
  "```c",
  "int main() \x7b return 99999999999; \x7d",
  "```",
  "",
  "## Solution",
  "",
  "Use a value between 0 and 2147483647. Negative values are written as a",
  "subtraction, e.g. `0 - 5`."]

def unterminatedComment : List String := [
  "# E0003: Unterminated Block Comment",
  "",
  "A `/*` comment was opened but the file ended before the matching `*/`.",
  "",
  "## Example",
  "",
  "```c",
  "int main() \x7b /* forgot to close",
  "    return 0;",
  "\x7d",
  "```",
  "",
  "## Solution",
  "",
  "Close the comment with `*/`. Block comments do not nest."]

def unexpectedToken : List String := [
  "# E1001: Unexpected Token",
  "",
  "The parser found a token that cannot appear at this point.",
  "",
  "## Example",
  "",
  "```c",
  "int main() \x7b return 0 \x7d",
  "```",
  "",
  "The `return` statement needs a terminating `;` before the `\x7d`.",
  "",
  "## Solution",
  "",
  "Add or remove the token named in the message."]

def expectedExpression : List String := [
  "# E1002: Expected Expression",
  "",
  "An expression was required but the parser found something else.",
  "",
  "## Example",
  "",
  "```c",
  "int main() \x7b return ; \x7d",
  "```",
  "",
  "## Solution",
  "",
  "Supply an expression: an identifier, an integer, a call, or a",
  "parenthesized expression."]

def expectedIdentifier : List String := [
  "# E1003: Expected Identifier",
  "",
  "A name was required, for a function, a parameter or a local variable.",
  "",
  "## Example",
  "",
  "```c",
  "int (int a);",
  "int main() \x7b int 1; return 0; \x7d",
  "```",
  "",
  "## Solution",
  "",
  "Provide a name made of letters, digits and `_` that does not start with a",
  "digit and is not a reserved word (`int`, `return`)."]

def expectedType : List String := [
  "# E1004: Expected Type",
  "",
  "A type was required. The only type is `int`.",
  "",
  "## Example",
  "",
  "```c",
  "f(int a);",
  "int g(a) \x7b return a; \x7d",
  "```",
  "",
  "## Solution",
  "",
  "Write `int` before every function name and every parameter."]

def duplicateDefinition : List String := [
  "# E2001: Duplicate Function Definition",
  "",
  "A function with this name already has a body.",
  "",
  "A function may be declared any number of times, and a declaration may be",
  "followed by one definition. A second definition is an error even if its",
  "signature is identical.",
  "",
  "## Example",
  "",
  "```c",
  "int f() \x7b return 0; \x7d",
  "int f() \x7b return 1; \x7d",
  "```",
  "",
  "## Solution",
  "",
  "Remove one of the definitions, or rename one of the functions."]

def undeclaredVariable : List String := [
  "# E2002: Undeclared Variable",
  "",
  "A name is used as a value but no parameter or local variable of the",
  "enclosing function has that name.",
  "",
  "Each function has its own scope. A local declared in one function is not",
  "visible from another.",
  "",
  "## Example",
  "",
  "```c",
  "int main() \x7b return j; \x7d",
  "```",
  "",
  "## Solution",
  "",
  "Declare the variable at the top of the function body:",
  "",
  "```c",
  "int main() \x7b int j; j = 0; return j; \x7d",
  "```"]

def undeclaredFunction : List String := [
  "# E2003: Undeclared Function",
  "",
  "No declared or defined function matches the call by name and number of",
  "arguments.",
  "",
  "Calls are resolved by name and argument count only. A function taking one",
  "argument cannot be called with zero.",
  "",
  "## Example",
  "",
  "```c",
  "int f(int a) \x7b return a; \x7d",
  "int main() \x7b f(); return 0; \x7d",
  "```",
  "",
  "## Solution",
  "",
  "Pass the expected number of arguments, or declare a function with the",
  "matching arity before use:",
  "",
  "```c",
  "int f(int a) \x7b return a; \x7d",
  "int main() \x7b f(1); return 0; \x7d",
  "```"]

def unknownType : List String := [
  "# E2004: Unknown Type",
  "",
  "A declaration names a type that is not registered. The builtin registry",
  "contains only `int`.",
  "",
  "The parser only accepts `int`, so this error is reported for syntax trees",
  "built programmatically.",
  "",
  "## Solution",
  "",
  "Use `int`, or register the type in the registry passed to analysis."]

def internalError : List String := [
  "# E9001: Internal Compiler Error",
  "",
  "The compiler reached a state that should be impossible.",
  "",
  "This is a bug in the compiler, not in your program.",
  "",
  "## Solution",
  "",
  "Please report the issue with the source file that triggered it. Running with",
  "`RUST_LOG=debug` prints a trace of the analysis passes that helps locate the",
  "problem."]

end MiniC.Explanation

namespace MiniC.Code

def explanationLines : Code → List String
  | invalidCharacter => Explanation.invalidCharacter
  | invalidInteger => Explanation.invalidInteger
  | unterminatedComment => Explanation.unterminatedComment
  | unexpectedToken => Explanation.unexpectedToken
  | expectedExpression => Explanation.expectedExpression
  | expectedIdentifier => Explanation.expectedIdentifier
  | expectedType => Explanation.expectedType
  | duplicateDefinition => Explanation.duplicateDefinition
  | undeclaredVariable => Explanation.undeclaredVariable
  | undeclaredFunction => Explanation.undeclaredFunction
  | unknownType => Explanation.unknownType
  | internalError => Explanation.internalError

/-- The page on a code; every line ends with a line feed. -/
def explanation (code : Code) : String := String.join (code.explanationLines.map (· ++ "\n"))

end MiniC.Code

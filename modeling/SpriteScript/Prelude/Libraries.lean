-- The packages beside the engine.
namespace SpriteScript.Prelude

-- Functions on numbers.
def mathText : String := "package math

// Pi is the ratio of a circle's circumference to its diameter.
const Pi = 3.141592653589793

// Abs returns the absolute value of x.
func Abs(x float64) float64

// Sqrt returns the square root of x.
func Sqrt(x float64) float64

// Floor returns the greatest integer value less than or equal to x.
func Floor(x float64) float64

// Max returns the larger of x or y.
func Max(x, y float64) float64

// Min returns the smaller of x or y.
func Min(x, y float64) float64

// Sin returns the sine of the radian argument x.
func Sin(x float64) float64

// Cos returns the cosine of the radian argument x.
func Cos(x float64) float64
"

-- Functions on texts.
def stringsText : String := "package strings

// Contains reports whether substr is within s.
func Contains(s, substr string) bool

// ToUpper returns s with all letters mapped to upper case.
func ToUpper(s string) string

// ToLower returns s with all letters mapped to lower case.
func ToLower(s string) string

// Split slices s into all substrings separated by sep.
func Split(s, sep string) []string

// Join concatenates the elements of elems, placing sep between them.
func Join(elems []string, sep string) string

// Repeat returns count copies of s.
func Repeat(s string, count int) string

// TrimSpace returns s without leading and trailing white space.
func TrimSpace(s string) string
"

-- Printing and formatting.
def fmtText : String := "package fmt

// Println formats its operands and writes them followed by a newline.
func Println(a ...any)

// Sprintf formats according to a format specifier and returns the result.
func Sprintf(format string, a ...any) string

// Sprint formats its operands and returns the result.
func Sprint(a ...any) string
"

end SpriteScript.Prelude
